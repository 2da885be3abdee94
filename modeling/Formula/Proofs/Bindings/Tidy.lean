import Formula.Proofs.Bindings.Collected
import Formula.Proofs.Bindings.Entries

/-! Bindings that are made by binding paths alone: every name is a segment, every child holds
something, and every value is found along its path. -/

namespace Formula.Bindings

variable {b rest inner : Bindings} {name first : String} {entry : Entry} {path : List String}
  {content v : Value}

/-- The name may stand before a row: it has no dots, and is less than all names of the row. -/
def Leads (name : String) (rest : Bindings) : Prop :=
  '.' ∉ name.toList ∧ ∀ other ∈ rest.entries, name < other.1

/-- Every name leads the row behind it, and no child is empty, at every level. -/
def IsTidy : Bindings → Prop
  | .empty => True
  | .value name _ rest => Leads name rest ∧ rest.IsTidy
  | .child name inner rest => Leads name rest ∧ (inner ≠ .empty ∧ inner.IsTidy) ∧ rest.IsTidy

def Entry.IsTidy : Entry → Prop
  | .value _ => True
  | .child inner => inner ≠ .empty ∧ inner.IsTidy

theorem isTidy_cons_iff :
    (cons name entry rest).IsTidy ↔ Leads name rest ∧ entry.IsTidy ∧ rest.IsTidy := by
  cases entry with
  | value content => simp only [cons, IsTidy, Entry.IsTidy, true_and]
  | child inner => simp only [cons, IsTidy, Entry.IsTidy]

namespace IsTidy

theorem of_mem_entries (tidy : b.IsTidy) (present : (name, entry) ∈ b.entries) :
    '.' ∉ name.toList ∧ entry.IsTidy := by
  induction b using cons_induction with
  | empty => cases present
  | cons first e rest ih =>
    obtain ⟨leads, tidyEntry, tidyRest⟩ := isTidy_cons_iff.mp tidy
    rw [entries_cons, List.mem_cons, Prod.mk.injEq] at present
    obtain ⟨rfl, rfl⟩ | within := present
    · exact ⟨leads.1, tidyEntry⟩
    · exact ih tidyRest within

theorem find?_of_mem_entries (tidy : b.IsTidy) (present : (name, entry) ∈ b.entries) :
    b.find? name = some entry := by
  induction b using cons_induction with
  | empty => cases present
  | cons first e rest ih =>
    obtain ⟨leads, -, tidyRest⟩ := isTidy_cons_iff.mp tidy
    rw [entries_cons, List.mem_cons, Prod.mk.injEq] at present
    rw [find?_cons]
    obtain ⟨rfl, rfl⟩ | within := present
    · exact if_pos rfl
    · have before : first < name := leads.2 _ within
      rw [if_neg before.ne, ih tidyRest within]

theorem insert (tidy : b.IsTidy) (plain : '.' ∉ name.toList) (tidyEntry : entry.IsTidy) :
    (b.insert name entry).IsTidy := by
  induction b using cons_induction with
  | empty =>
    have leads : Leads name empty := ⟨plain, fun _ present => absurd present List.not_mem_nil⟩
    exact isTidy_cons_iff.mpr ⟨leads, tidyEntry, trivial⟩
  | cons first e rest ih =>
    obtain ⟨leads, tidyHead, tidyRest⟩ := isTidy_cons_iff.mp tidy
    obtain before | rfl | after := lt_trichotomy name first
    · rw [insert_cons_of_lt before]
      refine isTidy_cons_iff.mpr ⟨⟨plain, ?_⟩, tidyEntry, tidy⟩
      rw [entries_cons, List.forall_mem_cons]
      exact ⟨before, fun later present => before.trans (leads.2 later present)⟩
    · rw [insert_cons_self]
      exact isTidy_cons_iff.mpr ⟨leads, tidyEntry, tidyRest⟩
    · rw [insert_cons_of_gt after]
      refine isTidy_cons_iff.mpr ⟨⟨leads.1, ?_⟩, tidyHead, ih tidyRest⟩
      rintro ⟨later, e'⟩ present
      obtain ⟨rfl, -⟩ | present := mem_entries_insert present
      · exact after
      · exact leads.2 _ present

theorem getD_child? (tidy : b.IsTidy) (name : String) : ((b.child? name).getD empty).IsTidy := by
  cases found : b.child? name with
  | none => trivial
  | some inner => exact (tidy.of_mem_entries (mem_entries_of_child? found)).2.2

theorem insertAt (tidy : b.IsTidy) (plain : ∀ segment ∈ first :: path, '.' ∉ segment.toList) :
    (b.insertAt content first path).IsTidy := by
  induction path generalizing b first with
  | nil => exact tidy.insert (plain first (by simp)) trivial
  | cons next path ih =>
    obtain ⟨head, below⟩ := List.forall_mem_cons.mp plain
    exact tidy.insert head ⟨insertAt_ne_empty _ _ _ _, ih (tidy.getD_child? first) below⟩

theorem insertPath (tidy : b.IsTidy) (text : String) :
    (b.insertPath (.ofText text) content).IsTidy :=
  tidy.insertAt fun _ present => Name.dot_not_mem_of_mem_segments present

end IsTidy

theorem isTidy_ofList (pairs : List (String × Value)) : (ofList pairs).IsTidy := by
  induction pairs using List.reverseRecOn with
  | nil => trivial
  | append_singleton pairs pair ih =>
    rw [ofList_concat]
    exact ih.insertPath pair.1

namespace Stores

theorem dot_not_mem (stored : b.Stores path entry) (tidy : b.IsTidy) :
    ∀ segment ∈ path, '.' ∉ segment.toList := by
  induction stored with
  | here present => exact List.forall_mem_singleton.mpr (tidy.of_mem_entries present).1
  | within present stored ih =>
    obtain ⟨plain, -, tidyInner⟩ := tidy.of_mem_entries present
    exact List.forall_mem_cons.mpr ⟨plain, ih tidyInner⟩

theorem isTidy (stored : b.Stores path entry) (tidy : b.IsTidy) : entry.IsTidy := by
  induction stored with
  | here present => exact (tidy.of_mem_entries present).2
  | within present stored ih => exact ih (tidy.of_mem_entries present).2.2

theorem valueAt (stored : b.Stores path (.value v)) (tidy : b.IsTidy) :
    ∃ first below, path = first :: below ∧ b.valueAt first below = some v := by
  generalize shape : Entry.value v = entry at stored
  induction stored with
  | @here b name entry present =>
    subst shape
    refine ⟨name, [], rfl, ?_⟩
    rw [Bindings.valueAt, value?, tidy.find?_of_mem_entries present]
  | @within b inner name path entry present stored ih =>
    obtain ⟨first, below, rfl, found⟩ := ih (tidy.of_mem_entries present).2.2 shape
    refine ⟨name, first :: below, rfl, ?_⟩
    rw [Bindings.valueAt, child?, tidy.find?_of_mem_entries present]
    exact found

theorem named (stored : b.Stores path (.value v)) (tidy : b.IsTidy) :
    b.named (String.intercalate "." path) = some v := by
  have plain := stored.dot_not_mem tidy
  obtain ⟨first, below, rfl, found⟩ := stored.valueAt tidy
  rw [Bindings.named, Name.ofText_intercalate plain, found]

end Stores

/-- In collected bindings no name at any level has a dot, no child is empty, and every value is what
its own kind of variable finds along the names that lead to it. They are empty only if nothing was
collected, and one more path makes them grow by one name at most. -/
theorem stores_ofList (pairs : List (String × Value)) :
    (∀ path entry, (ofList pairs).Stores path entry → ∀ name ∈ path, '.' ∉ name.toList) ∧
      (∀ path inner, (ofList pairs).Stores path (.child inner) → inner ≠ .empty) ∧
      (∀ path v, (ofList pairs).Stores path (.value v) →
        ((ofList pairs).context.resolve v.kind (String.intercalate "." path)).result =
          .ok v.content) ∧
      ((ofList pairs).size = 0 ↔ pairs = []) ∧
      ∀ pair, (ofList pairs).size ≤ (ofList (pairs ++ [pair])).size ∧
        (ofList (pairs ++ [pair])).size ≤ (ofList pairs).size + 1 := by
  have tidy := isTidy_ofList pairs
  refine ⟨fun path entry stored => stored.dot_not_mem tidy,
    fun path inner stored => (stored.isTidy tidy).1,
    fun path v stored => resolve_context_of_named (stored.named tidy), ?_, fun pair => ?_⟩
  · rw [size_eq_zero_iff]
    refine ⟨fun nothing => ?_, fun nothing => by rw [nothing]; rfl⟩
    obtain rfl | ⟨front, pair, rfl⟩ := List.eq_nil_or_concat' pairs
    · rfl
    · rw [ofList_concat] at nothing
      exact absurd nothing (insertAt_ne_empty _ _ _ _)
  · rw [ofList_concat]
    exact size_insertAt _ _ _ _

theorem stores_ofList_order :
    let pairs : List (String × Value) :=
      [("order", ⟨.boolean, true⟩), ("order..note", ⟨.string, "urgent"⟩), ("total", ⟨.string, ""⟩)]
    ∃ inner : Bindings, (ofList pairs).Stores ["order", ""] (.child inner) ∧ inner ≠ .empty ∧
      (ofList pairs).Stores ["order", "", "note"] (.value ⟨.string, "urgent"⟩) ∧
      (∀ name ∈ ["order", "", "note"], '.' ∉ name.toList) ∧
      ((ofList pairs).context.resolve .string "order..note").result = .ok "urgent" := by
  intro pairs
  have deeper : (ofList pairs).Stores ["order", ""]
      (.child (.value "note" ⟨.string, "urgent"⟩ .empty)) :=
    .within (.head _) (.here (.head _))
  have stored : (ofList pairs).Stores ["order", "", "note"] (.value ⟨.string, "urgent"⟩) :=
    .within (.head _) (.within (.head _) (.here (.head _)))
  obtain ⟨plain, filled, found, -⟩ := stores_ofList pairs
  exact ⟨_, deeper, filled _ _ deeper, stored, plain _ _ stored, found _ _ stored⟩

end Formula.Bindings
