import Formula.Proofs.Rule.Run
import Formula.Rule.Number

/-! The rules of arithmetic take tokens from the front of a row and give none back, also where they
fail. -/

namespace Formula

def Cursor.Precedes (c d : Cursor) : Prop := ∃ taken, c = ⟨taken ++ d.tokens, d.stop⟩

namespace Cursor.Precedes

variable {c d d' : Cursor}

theorem refl (c : Cursor) : c.Precedes c := ⟨[], rfl⟩

theorem trans (first : c.Precedes d) (second : d.Precedes d') : c.Precedes d' := by
  obtain ⟨taken, rfl⟩ := first
  obtain ⟨taken', rfl⟩ := second
  exact ⟨taken ++ taken', by rw [List.append_assoc]⟩

theorem cons (t : Located) (rest : List Located) (stop : Nat) :
    Precedes ⟨t :: rest, stop⟩ ⟨rest, stop⟩ :=
  ⟨[t], rfl⟩

end Cursor.Precedes

namespace Rule

variable {α β : Type} {n : Numeric}

def leaves : EStateM.Result ParseError Cursor α → Cursor
  | .ok _ after | .error _ after => after

def Forward (rule : Rule α) : Prop := ∀ c : Cursor, c.Precedes (leaves (rule c))

theorem forward_pure (a : α) : Forward (pure a) := Cursor.Precedes.refl

theorem forward_throw (e : ParseError) : Forward (throw e : Rule α) := Cursor.Precedes.refl

theorem forward_offset : Forward offset := Cursor.Precedes.refl

theorem forward_peek : Forward peek := Cursor.Precedes.refl

theorem forward_remaining : Forward remaining := Cursor.Precedes.refl

theorem forward_next : Forward next := by
  intro c
  obtain ⟨tokens, stop⟩ := c
  cases tokens with
  | nil => exact .refl _
  | cons t rest => exact .cons t rest stop

theorem precedes_bind {first : Rule α} {second : α → Rule β} {c d : Cursor}
    (start : d.Precedes (leaves (first c))) (forward : ∀ a, Forward (second a)) :
    d.Precedes (leaves ((first >>= second) c)) := by
  rw [bind_run]
  cases found : first c with
  | ok a after =>
    rw [found] at start
    exact start.trans (forward a after)
  | error e after =>
    rw [found] at start
    exact start

theorem forward_bind {first : Rule α} {second : α → Rule β} (forward : Forward first)
    (forward' : ∀ a, Forward (second a)) : Forward (first >>= second) :=
  fun c => precedes_bind (forward c) forward'

theorem forward_map {f : α → β} {rule : Rule α} (forward : Forward rule) :
    Forward (f <$> rule) := by
  rw [← bind_pure_comp]
  exact forward_bind forward fun _ => forward_pure _

theorem forward_take (expected : String) (read : Token → Option α) :
    Forward (take expected read) := by
  refine forward_bind forward_next fun t => ?_
  cases t with
  | none => exact forward_bind forward_offset fun _ => forward_throw _
  | some t =>
    cases reading : read t.token with
    | none => simpa only [reading] using forward_throw _
    | some a => simpa only [reading] using forward_pure a

theorem forward_exhausted : Forward (exhausted : Rule α) :=
  forward_bind forward_offset fun _ => forward_throw _

theorem forward_closing (a : α) : Forward (expect .closeParen >>= fun _ => pure a) :=
  forward_bind (forward_take _ _) fun _ => forward_pure _

theorem forward_parenthesized {inner : Rule α} (forward : Forward inner) :
    Forward (parenthesized inner) :=
  forward_bind (forward_take _ _) fun _ => forward_bind forward forward_closing

section Chain

variable {operand : Rule α} {join : Token → Option (α → α → α)}

theorem forward_chainFrom (forward : Forward operand) (steps : Nat) (a : α) :
    Forward (chainFrom operand join steps a) := by
  induction steps generalizing a with
  | zero => exact forward_pure a
  | succ steps ih =>
    refine forward_bind forward_peek fun token => ?_
    cases token.bind join with
    | none => exact forward_pure a
    | some combine =>
      exact forward_bind forward_next fun _ => forward_bind forward fun _ => ih _

theorem forward_chain (forward : Forward operand) : Forward (chain operand join) :=
  forward_bind forward fun _ =>
    forward_bind forward_remaining fun steps => forward_chainFrom forward steps _

end Chain

theorem forward_name {kind : Kind} : Forward (name : Rule (Expr kind)) :=
  forward_map (forward_chain (forward_take _ _))

theorem forward_literal (negative : Bool) (start : Nat) : Forward (literal n negative start) := by
  intro c
  obtain ⟨tokens, stop⟩ := c
  cases tokens with
  | nil => exact .refl _
  | cons t rest =>
    rw [literal]
    simp only [bind_run, next_cons]
    cases n.literal? negative start t.token with
    | none => exact .cons t rest stop
    | some reading => cases reading <;> exact .cons t rest stop

theorem forward_factorOver {inner : Rule (Expr (.number n))} (forward : Forward inner) :
    Forward (factorOver inner) := by
  refine forward_bind forward_peek fun token => ?_
  split
  · exact forward_parenthesized forward
  · exact forward_name
  · exact forward_bind forward_offset fun _ => forward_bind forward_next fun _ => forward_literal _ _
  · exact forward_bind forward_offset fun _ => forward_literal _ _

theorem forward_sumOver {inner : Rule (Expr (.number n))} (forward : Forward inner) :
    Forward (sumOver inner) :=
  forward_chain (forward_chain (forward_factorOver forward))

theorem forward_sumWithin (depth : Nat) : Forward (sumWithin n depth) := by
  induction depth with
  | zero => exact forward_sumOver forward_exhausted
  | succ depth ih => exact forward_sumOver ih

end Rule

end Formula
