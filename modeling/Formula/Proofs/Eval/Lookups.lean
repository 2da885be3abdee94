import Formula.Proofs.Eval.Find

/-! An evaluation depends on the answers to its own lookups, and on nothing else of its context. -/

namespace Formula

namespace Context

def Agrees (c c' : Context) : Lookup → Prop
  | .value path name => c'.value path name = c.value path name
  | .child path name => c'.hasChild path name = c.hasChild path name

def Holds (c : Context) : Lookup → Prop
  | .value path name => (c.value path name).isSome
  | .child path name => c.hasChild path name

structure Extends (c c' : Context) : Prop where
  value : ∀ path name v, c.value path name = some v → c'.value path name = some v
  child : ∀ path name, c.hasChild path name → c'.hasChild path name

theorem Extends.agrees {c c' : Context} (wider : c.Extends c') {l : Lookup} (holds : c.Holds l) :
    c.Agrees c' l := by
  cases l with
  | value path name =>
    obtain ⟨v, found⟩ := Option.isSome_iff_exists.mp holds
    exact (wider.value path name v found).trans found.symm
  | child path name => exact (wider.child path name holds).trans (Eq.symm holds)

end Context

namespace Outcome

variable {α β : Type}

/-- The answers to the lookups determine the outcome, and it is no success unless the context has
all that was looked up. -/
structure Traced (outcome : Context → Outcome α) : Prop where
  determined : ∀ c c', (∀ l ∈ (outcome c).lookups, c.Agrees c' l) → outcome c' = outcome c
  held : ∀ c a, (outcome c).result = .ok a → ∀ l ∈ (outcome c).lookups, c.Holds l

theorem traced_ofResult (result : Except EvalError α) : Traced fun _ => ofResult result :=
  ⟨fun _ _ _ => rfl, fun _ _ _ => List.forall_mem_nil _⟩

theorem traced_pure (a : α) : Traced fun _ => (pure a : Outcome α) := traced_ofResult (.ok a)

theorem Traced.bind {first : Context → Outcome α} {second : α → Context → Outcome β}
    (traced : Traced first) (traced' : ∀ a, Traced (second a)) :
    Traced fun c => first c >>= fun a => second a c := by
  constructor
  · intro c c' agrees
    cases result : (first c).result with
    | error error =>
      rw [bind_of_error result] at agrees ⊢
      rw [traced.determined c c' agrees, bind_of_error result]
    | ok a =>
      rw [bind_of_ok result] at agrees ⊢
      rw [List.forall_mem_append] at agrees
      rw [traced.determined c c' agrees.1, bind_of_ok result,
        (traced' a).determined c c' agrees.2]
  · intro c b success
    cases result : (first c).result with
    | error error =>
      rw [bind_of_error result] at success
      cases success
    | ok a =>
      rw [bind_of_ok result] at success ⊢
      exact List.forall_mem_append.mpr
        ⟨traced.held c a result, (traced' a).held c b success⟩

end Outcome

namespace Context

open Outcome

theorem traced_find (name : String) (path : List String) (segment : String) (rest : List String) :
    Traced fun c => c.find name path segment rest := by
  induction rest generalizing path segment with
  | nil =>
    constructor
    · intro c c' agrees
      simp only [find_nil, List.forall_mem_singleton, Agrees] at agrees ⊢
      rw [agrees]
    · intro c v success
      simp only [find_nil, List.forall_mem_singleton, Holds] at success ⊢
      cases found : c.value path segment with
      | none =>
        rw [found] at success
        cases success
      | some w => exact Option.isSome_some
  | cons next rest ih =>
    have later := ih (path ++ [segment]) next
    constructor
    · intro c c' agrees
      cases child : c.hasChild path segment with
      | false =>
        rw [find_cons_of_not_hasChild _ _ _ _ child, List.forall_mem_singleton] at agrees
        rw [find_cons_of_not_hasChild _ _ _ _ child,
          find_cons_of_not_hasChild _ _ _ _ (agrees.trans child)]
      | true =>
        rw [find_cons_of_hasChild _ _ _ _ child, List.forall_mem_cons] at agrees
        rw [find_cons_of_hasChild _ _ _ _ child,
          find_cons_of_hasChild _ _ _ _ (agrees.1.trans child),
          later.determined c c' agrees.2]
    · intro c v success
      cases child : c.hasChild path segment with
      | false =>
        rw [find_cons_of_not_hasChild _ _ _ _ child] at success
        cases success
      | true =>
        rw [find_cons_of_hasChild _ _ _ _ child] at success ⊢
        exact List.forall_mem_cons.mpr ⟨child, later.held c v success⟩

theorem traced_resolve (kind : Kind) (name : String) : Traced fun c => c.resolve kind name := by
  refine (traced_find name [] _ _).bind fun v => ?_
  split
  · exact traced_pure _
  · exact traced_ofResult _

end Context

namespace Expr

open Outcome

theorem traced_run {k : Kind} (e : Expr k) : Traced fun c => e.run c := by
  induction e with
  | const value => exact traced_pure value
  | var name => exact Context.traced_resolve _ name
  | arith op left right ih ih' =>
    exact ih.bind fun a => ih'.bind fun b => traced_ofResult _
  | compare op left right ih ih' =>
    exact ih.bind fun a => ih'.bind fun b => traced_pure _
  | logic op left right ih ih' =>
    refine ih.bind fun a => ?_
    split
    · exact traced_pure a
    · exact ih'

/-- In a context that answers all lookups of an evaluation in the same way, the evaluation makes the
same lookups and ends with the same value or error. So a value stays when names are bound that were
not bound before. -/
theorem run_eq_of_agrees {k : Kind} (e : Expr k) (c c' : Context) :
    ((∀ l ∈ (e.run c).lookups, c.Agrees c' l) → e.run c' = e.run c) ∧
      (c.Extends c' → ∀ v, e.eval c = .ok v → e.eval c' = .ok v) := by
  have traced := e.traced_run
  refine ⟨traced.determined c c', ?_⟩
  intro wider v value
  have same : e.run c' = e.run c :=
    traced.determined c c' fun l present => wider.agrees (traced.held c v value l present)
  rw [eval, same]
  exact value

def seven : Whole .int := ⟨7, by decide⟩

/-- The expression `a.b >= 7 || x == "y"`. -/
def guarded : Expr .boolean :=
  .logic .or (.compare (o := .number (.whole .int)) .ge (.var "a.b") (.const seven))
    (.compare (o := .string) .eq (.var "x") (.const "y"))

def nested : Context where
  value path name := if path = ["a"] ∧ name = "b" then some ⟨.int, seven⟩ else none
  hasChild path name := path = [] ∧ name = "a"

def crowded : Context where
  value path name := if path = [] then some ⟨.boolean, false⟩ else nested.value path name
  hasChild := nested.hasChild

theorem extends_crowded : nested.Extends crowded := by
  refine ⟨?_, fun _ _ child => child⟩
  intro path name v found
  have inside : path ≠ [] := by
    rintro rfl
    cases found
  exact (if_neg inside).trans found

theorem run_guarded_crowded :
    (∀ l ∈ (guarded.run nested).lookups, nested.Agrees crowded l) ∧
      guarded.run crowded = guarded.run nested ∧ nested.Extends crowded ∧
      guarded.eval nested = .ok true ∧ guarded.eval crowded = .ok true := by
  have lookups : (guarded.run nested).lookups = [.child [] "a", .value ["a"] "b"] := by rfl
  have agrees : ∀ l ∈ (guarded.run nested).lookups, nested.Agrees crowded l := by
    rw [lookups]
    exact List.forall_mem_cons.mpr ⟨rfl, List.forall_mem_singleton.mpr rfl⟩
  have value : guarded.eval nested = .ok true := by rfl
  have both := run_eq_of_agrees guarded nested crowded
  exact ⟨agrees, both.1 agrees, extends_crowded, value, both.2 extends_crowded true value⟩

end Expr

end Formula
