import Formula.Context
import Formula.Name

/-! Names bound to values or to further bindings. -/

namespace Formula

/-- Bindings in the order of their names, so that equal ones agree entry by entry. -/
inductive Bindings
  | empty
  | value (name : String) (content : Value) (rest : Bindings)
  | child (name : String) (inner rest : Bindings)

namespace Bindings

inductive Entry
  | value (content : Value)
  | child (inner : Bindings)

def cons (name : String) (entry : Entry) (rest : Bindings) : Bindings :=
  match entry with
  | .value content => .value name content rest
  | .child inner => .child name inner rest

def find? (sought : String) : Bindings → Option Entry
  | .empty => none
  | .value name content rest => if name = sought then some (.value content) else rest.find? sought
  | .child name inner rest => if name = sought then some (.child inner) else rest.find? sought

def insert (name : String) (entry : Entry) : Bindings → Bindings
  | .empty => cons name entry .empty
  | .value first content rest =>
    if name = first then cons name entry rest
    else if name < first then cons name entry (.value first content rest)
    else .value first content (rest.insert name entry)
  | .child first inner rest =>
    if name = first then cons name entry rest
    else if name < first then cons name entry (.child first inner rest)
    else .child first inner (rest.insert name entry)

theorem find?_cons (sought name : String) (entry : Entry) (rest : Bindings) :
    (cons name entry rest).find? sought =
      if name = sought then some entry else rest.find? sought := by
  cases entry <;> rfl

theorem find?_insert (sought name : String) (entry : Entry) (b : Bindings) :
    (b.insert name entry).find? sought = if name = sought then some entry else b.find? sought := by
  induction b with
  | empty => simp [insert, find?_cons]
  | value first content rest ih | child first inner rest _ ih =>
    unfold insert
    split
    · rename_i same
      subst same
      simp only [find?_cons, find?]
      split <;> rfl
    · split
      · exact find?_cons _ _ _ _
      · simp only [find?, ih]
        split <;> split <;> simp_all

def value? (b : Bindings) (name : String) : Option Value :=
  match b.find? name with
  | some (.value content) => some content
  | _ => none

def child? (b : Bindings) (name : String) : Option Bindings :=
  match b.find? name with
  | some (.child inner) => some inner
  | _ => none

/-- Binds the last segment in the child that the others lead to. Missing children are made, and a
value on the way gives place to one. -/
def insertAt (content : Value) (b : Bindings) (first : String) : List String → Bindings
  | [] => b.insert first (.value content)
  | next :: rest =>
    b.insert first (.child (insertAt content ((b.child? first).getD .empty) next rest))

def insertPath (b : Bindings) (name : Name) (content : Value) : Bindings :=
  insertAt content b name.first name.rest

def ofList (pairs : List (String × Value)) : Bindings :=
  pairs.foldl (fun b (name, content) => b.insertPath (.ofText name) content) .empty

def size : Bindings → Nat
  | .empty => 0
  | .value _ _ rest => rest.size + 1
  | .child _ _ rest => rest.size + 1

def entries : Bindings → List (String × Entry)
  | .empty => []
  | .value name content rest => (name, .value content) :: rest.entries
  | .child name inner rest => (name, .child inner) :: rest.entries

def same : Bindings → Bindings → Bool
  | .empty, .empty => true
  | .value name content rest, .value name' content' rest' =>
    name == name' && content.same content' && rest.same rest'
  | .child name inner rest, .child name' inner' rest' =>
    name == name' && inner.same inner' && rest.same rest'
  | _, _ => false

def descend (b : Bindings) : List String → Option Bindings
  | [] => some b
  | name :: path => (b.child? name).bind (·.descend path)

def context (b : Bindings) : Context where
  value path name := (b.descend path).bind (·.value? name)
  hasChild path name := ((b.descend path).bind (·.child? name)).isSome

end Bindings

end Formula
