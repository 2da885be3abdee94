import Mathlib.Data.String.Basic
import Formula.Proofs.Bindings.Path

/-! Bindings as rows of entries: what binding a name does to a row, and what is stored at the paths
of a tree of rows, whether or not a look-up gets there. -/

namespace Formula

namespace Value

theorem same_self_iff {v : Value} : v.same v ↔ v ≠ ⟨.double, .nan⟩ := by
  obtain ⟨kind, content⟩ := v
  have own : (mk kind content).as? kind = some content := as?_mk kind content
  rw [same, own]
  match kind, content with
  | .double, .nan => simp [Kind.compare, Ordered.compare, Numeric.compare, Double.compare, Double.rank]
  | .double, .signed negative magnitude =>
    cases negative <;>
      simp [Kind.compare, Ordered.compare, Numeric.compare, Double.compare, Double.rank]
  | .whole _, n => simp [Kind.compare, Ordered.compare, Numeric.compare]
  | .string, text => simp [Kind.compare, Ordered.compare, compareOfLessAndEq]
  | .instant, i => simp [Kind.compare, Ordered.compare, i.compare_self]
  | .boolean, b => simp [Kind.compare]

end Value

namespace Bindings

variable {b rest inner : Bindings} {name name' first : String} {entry entry' e : Entry}
  {path : List String}

@[elab_as_elim]
theorem cons_induction {motive : Bindings → Prop} (b : Bindings) (empty : motive empty)
    (cons : ∀ name entry rest, motive rest → motive (cons name entry rest)) : motive b := by
  induction b with
  | empty => exact empty
  | value name content rest ih => exact cons name (.value content) rest ih
  | child name inner rest _ ih => exact cons name (.child inner) rest ih

theorem insert_cons (name first : String) (entry e : Entry) (rest : Bindings) :
    (cons first e rest).insert name entry =
      if name = first then cons name entry rest
      else if name < first then cons name entry (cons first e rest)
      else cons first e (rest.insert name entry) := by
  cases e <;> rfl

theorem entries_cons (name : String) (entry : Entry) (rest : Bindings) :
    (cons name entry rest).entries = (name, entry) :: rest.entries := by
  cases entry <;> rfl

theorem size_cons (name : String) (entry : Entry) (rest : Bindings) :
    (cons name entry rest).size = rest.size + 1 := by
  cases entry <;> rfl

theorem insert_cons_self (name : String) (entry e : Entry) (rest : Bindings) :
    (cons name e rest).insert name entry = cons name entry rest := by
  rw [insert_cons, if_pos rfl]

theorem insert_cons_of_lt (before : name < first) (entry e : Entry) (rest : Bindings) :
    (cons first e rest).insert name entry = cons name entry (cons first e rest) := by
  rw [insert_cons, if_neg before.ne, if_pos before]

theorem insert_cons_of_gt (after : first < name) (entry e : Entry) (rest : Bindings) :
    (cons first e rest).insert name entry = cons first e (rest.insert name entry) := by
  rw [insert_cons, if_neg after.ne', if_neg after.not_gt]

theorem insert_insert_self (b : Bindings) (name : String) (entry entry' : Entry) :
    (b.insert name entry).insert name entry' = b.insert name entry' := by
  induction b using cons_induction with
  | empty => exact insert_cons_self name entry' entry empty
  | cons first e rest ih =>
    obtain before | rfl | after := lt_trichotomy name first
    · rw [insert_cons_of_lt before, insert_cons_of_lt before, insert_cons_self]
    · rw [insert_cons_self, insert_cons_self, insert_cons_self]
    · rw [insert_cons_of_gt after, insert_cons_of_gt after, insert_cons_of_gt after, ih]

theorem insert_insert_of_lt (b : Bindings) (entry entry' : Entry) (before : name < name') :
    (b.insert name entry).insert name' entry' = (b.insert name' entry').insert name entry := by
  induction b using cons_induction with
  | empty =>
    calc
      (cons name entry empty).insert name' entry' = cons name entry (cons name' entry' empty) :=
        insert_cons_of_gt before ..
      _ = (cons name' entry' empty).insert name entry := (insert_cons_of_lt before ..).symm
  | cons first e rest ih =>
    obtain least | rfl | greater := lt_trichotomy name first
    · rw [insert_cons_of_lt least, insert_cons_of_gt before]
      -- The greater name goes before the row, in place of its first entry, or behind that.
      obtain least' | rfl | greater' := lt_trichotomy name' first
      · rw [insert_cons_of_lt least', insert_cons_of_lt before]
      · rw [insert_cons_self, insert_cons_of_lt before]
      · rw [insert_cons_of_gt greater', insert_cons_of_lt least]
    · rw [insert_cons_self, insert_cons_of_gt before, insert_cons_of_gt before, insert_cons_self]
    · have greater' := greater.trans before
      rw [insert_cons_of_gt greater, insert_cons_of_gt greater', insert_cons_of_gt greater',
        insert_cons_of_gt greater, ih]

theorem insert_insert_comm (b : Bindings) (entry entry' : Entry) (apart : name ≠ name') :
    (b.insert name entry).insert name' entry' = (b.insert name' entry').insert name entry := by
  obtain before | after := lt_or_gt_of_ne apart
  · exact insert_insert_of_lt b entry entry' before
  · exact (insert_insert_of_lt b entry' entry after).symm

theorem insert_ne_empty (b : Bindings) (name : String) (entry : Entry) :
    b.insert name entry ≠ empty := by
  have filled (first : String) (e : Entry) (rest : Bindings) : cons first e rest ≠ empty := by
    cases e <;> nofun
  induction b using cons_induction with
  | empty => exact filled _ _ _
  | cons first e rest =>
    obtain before | rfl | after := lt_trichotomy name first
    · rw [insert_cons_of_lt before]
      exact filled _ _ _
    · rw [insert_cons_self]
      exact filled _ _ _
    · rw [insert_cons_of_gt after]
      exact filled _ _ _

theorem size_insert (b : Bindings) (name : String) (entry : Entry) :
    b.size ≤ (b.insert name entry).size ∧ (b.insert name entry).size ≤ b.size + 1 := by
  induction b using cons_induction with
  | empty =>
    have one : (empty.insert name entry).size = 1 := size_cons name entry empty
    simp [one, size]
  | cons first e rest ih =>
    obtain before | rfl | after := lt_trichotomy name first
    · rw [insert_cons_of_lt before, size_cons name]
      omega
    · rw [insert_cons_self, size_cons, size_cons]
      omega
    · rw [insert_cons_of_gt after, size_cons, size_cons]
      omega

theorem insertAt_ne_empty (b : Bindings) (content : Value) (first : String) (path : List String) :
    b.insertAt content first path ≠ empty := by
  cases path <;> exact insert_ne_empty b first _

theorem size_insertAt (b : Bindings) (content : Value) (first : String) (path : List String) :
    b.size ≤ (b.insertAt content first path).size ∧
      (b.insertAt content first path).size ≤ b.size + 1 := by
  cases path <;> exact size_insert b first _

theorem size_eq_zero_iff : b.size = 0 ↔ b = empty := by
  cases b <;> simp [size]

theorem mem_entries_insert (present : (first, e) ∈ (b.insert name entry).entries) :
    (first = name ∧ e = entry) ∨ (first, e) ∈ b.entries := by
  induction b using cons_induction with
  | empty =>
    have alone : (first, e) ∈ [(name, entry)] := by rwa [insert, entries_cons] at present
    exact .inl (Prod.mk.inj (List.mem_singleton.mp alone))
  | cons head e' rest ih =>
    obtain before | rfl | after := lt_trichotomy name head
    · rw [insert_cons_of_lt before, entries_cons, List.mem_cons, Prod.mk.injEq] at present
      exact present
    · rw [insert_cons_self, entries_cons, List.mem_cons, Prod.mk.injEq] at present
      rw [entries_cons]
      exact present.imp_right (.tail _)
    · rw [insert_cons_of_gt after, entries_cons, List.mem_cons] at present
      rw [entries_cons, List.mem_cons]
      obtain same | present := present
      · exact .inr (.inl same)
      · exact (ih present).imp_right .inr

theorem mem_entries_of_find? (found : b.find? name = some entry) : (name, entry) ∈ b.entries := by
  induction b using cons_induction with
  | empty => cases found
  | cons first e rest ih =>
    rw [find?_cons] at found
    rw [entries_cons, List.mem_cons]
    split at found
    · rename_i same
      cases found
      exact .inl (by rw [same])
    · exact .inr (ih found)

theorem mem_entries_of_child? (found : b.child? name = some inner) :
    (name, .child inner) ∈ b.entries := by
  apply mem_entries_of_find?
  unfold child? at found
  split at found
  · rename_i other present
    cases found
    exact present
  · cases found

/-- An entry at a path of names, of which each but the last is that of a child. -/
inductive Stores : Bindings → List String → Entry → Prop
  | here {b : Bindings} {name : String} {entry : Entry} :
      (name, entry) ∈ b.entries → Stores b [name] entry
  | within {b inner : Bindings} {name : String} {path : List String} {entry : Entry} :
      (name, .child inner) ∈ b.entries → Stores inner path entry → Stores b (name :: path) entry

theorem not_stores_empty : ¬ empty.Stores path entry := by
  intro stored
  cases stored with
  | here present => cases present
  | within present stored => cases present

theorem Stores.mono (stored : b.Stores path entry)
    (within : ∀ name e, (name, e) ∈ b.entries → (name, e) ∈ rest.entries) :
    rest.Stores path entry := by
  cases stored with
  | here present => exact .here (within _ _ present)
  | within present stored => exact .within (within _ _ present) stored

theorem Stores.of_entries (stored : b.Stores path e)
    (split : ∀ first e', (first, e') ∈ b.entries →
      (first = name ∧ e' = entry) ∨ (first, e') ∈ rest.entries) :
    (path = [name] ∧ e = entry) ∨
      (∃ inner below, entry = .child inner ∧ path = name :: below ∧ inner.Stores below e) ∨
      rest.Stores path e := by
  cases stored with
  | here present =>
    obtain ⟨rfl, rfl⟩ | present := split _ _ present
    · exact .inl ⟨rfl, rfl⟩
    · exact .inr (.inr (.here present))
  | within present stored =>
    obtain ⟨rfl, rfl⟩ | present := split _ _ present
    · exact .inr (.inl ⟨_, _, rfl, rfl, stored⟩)
    · exact .inr (.inr (.within present stored))

theorem Stores.of_insert (stored : (b.insert name entry).Stores path e) :
    (path = [name] ∧ e = entry) ∨
      (∃ inner below, entry = .child inner ∧ path = name :: below ∧ inner.Stores below e) ∨
      b.Stores path e :=
  stored.of_entries fun _ _ => mem_entries_insert

theorem stores_cons_iff :
    (cons name entry rest).Stores path e ↔
      (path = [name] ∧ e = entry) ∨
        (∃ inner below, entry = .child inner ∧ path = name :: below ∧ inner.Stores below e) ∨
        rest.Stores path e := by
  constructor
  · intro stored
    refine stored.of_entries fun first e' present => ?_
    rwa [entries_cons, List.mem_cons, Prod.mk.injEq] at present
  · rintro (⟨rfl, rfl⟩ | ⟨inner, below, rfl, rfl, stored⟩ | stored)
    · exact .here (by simp [entries_cons])
    · exact .within (by simp [entries_cons]) stored
    · apply stored.mono
      intro first e present
      rw [entries_cons]
      exact .tail _ present

/-- Not-a-number, which is not equal to itself, is no value at any path. -/
def IsReflexive (b : Bindings) : Prop :=
  ∀ path v, b.Stores path (.value v) → v ≠ ⟨.double, .nan⟩

theorem isReflexive_cons_iff :
    (cons name entry rest).IsReflexive ↔
      (match entry with
        | .value v => v ≠ ⟨.double, .nan⟩
        | .child inner => inner.IsReflexive) ∧ rest.IsReflexive := by
  unfold IsReflexive
  simp only [stores_cons_iff]
  cases entry with
  | value v => grind
  | child inner => grind

theorem same_self_iff : b.same b ↔ b.IsReflexive := by
  induction b with
  | empty => exact ⟨fun _ _ _ stored => absurd stored not_stores_empty, fun _ => rfl⟩
  | value name content rest ih =>
    have split := @isReflexive_cons_iff rest name (.value content)
    rw [same, Bool.and_eq_true, Bool.and_eq_true, ih, Value.same_self_iff]
    rw [cons] at split
    simp [split]
  | child name inner rest ih ih' =>
    have split := @isReflexive_cons_iff rest name (.child inner)
    rw [same, Bool.and_eq_true, Bool.and_eq_true, ih, ih']
    rw [cons] at split
    simp [split]

end Bindings

end Formula
