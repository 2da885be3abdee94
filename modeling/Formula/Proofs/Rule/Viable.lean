import Formula.Proofs.Rule.Blame
import Formula.Proofs.Source.Nesting

/-! Arithmetic is refused at the first token with which no expression begins. -/

namespace Formula

/-- Some continuation makes the row an expression. -/
def IsViable (n : Numeric) (ts : List Token) : Prop := ∃ more e, ReadsNumber n .sum (ts ++ more) e

def IsComplete (n : Numeric) (ts : List Token) : Prop := ∃ e, ReadsNumber n .sum ts e

def AdmitsLiteral (n : Numeric) (ts : List Token) : Prop :=
  ∃ t, n.IsLiteral t ∧ IsViable n (ts ++ [t])

/-- A minus sign where an operand may begin, so that it is the sign of a literal. -/
def IsSign (n : Numeric) (before : List Located) (sign : Located) : Prop :=
  sign.token = .arithmetic .sub ∧ IsViable n (before.map Located.token ++ [.openParen])

/-- What is reported when the row before a token is viable and with the token is not. -/
structure Blamed (n : Numeric) (front : List Located) (k : Located) (e : ParseError) : Prop where
  trailing : IsComplete n (front.map Located.token) →
    e = .unexpectedTrailingTokens k.token.text k.offset
  tooLarge : ¬ IsComplete n (front.map Located.token) → n.IsLiteral k.token →
    AdmitsLiteral n (front.map Located.token) →
    (∀ before sign, front = before ++ [sign] → ¬ IsSign n before sign) →
    e = .literalTooLarge k.token.text k.offset
  negative : ¬ IsComplete n (front.map Located.token) → n.IsLiteral k.token →
    AdmitsLiteral n (front.map Located.token) →
    ∀ before sign, front = before ++ [sign] → IsSign n before sign →
    e = .literalTooLarge ("-" ++ k.token.text) sign.offset
  unexpected : ¬ IsComplete n (front.map Located.token) →
    ¬ (n.IsLiteral k.token ∧ AdmitsLiteral n (front.map Located.token)) →
    ∃ expected, e = .unexpectedToken k.token.text expected k.offset

namespace Spot

variable {n : Numeric} {s r : Spot} {t : Located} {front row : List Located}

def fault (n : Numeric) (s : Spot) (t : Located) : ParseError :=
  if s.isFinished then .unexpectedTrailingTokens t.token.text t.offset else s.place.error n t

theorem walk_eq_none (walked : walk n s front = some r) (refused : r.after n t = none)
    (rest : List Located) : walk n s (front ++ t :: rest) = none := by
  rw [walk_append_of_eq_some walked, walk_cons, refused]
  rfl

theorem exists_of_complete_eq_error {stop : Nat} {e : ParseError}
    (failed : Source.complete (Rule.sum n) ⟨row, stop⟩ = .error e) :
    (∃ r, walk n start row = some r ∧ r.isFinished = false ∧
        e = .unexpectedEndOfInput (r.place.expected n) stop) ∨
      ∃ front t rest r, row = front ++ t :: rest ∧ walk n start front = some r ∧
        r.after n t = none ∧ e = r.fault n t := by
  unfold Source.complete at failed
  split at failed
  · rename_i found
    cases failed
    obtain ⟨front, back, r, rfl, walked, unfinished, stops⟩ :=
      blames_sum _ _ _ _ 0 (Nat.lt_succ_self _) found
    have open' : r.isFinished = false := by
      rw [isFinished, Bool.and_eq_false_imp]
      exact fun ends => by simpa using Nat.ne_of_gt (unfinished ends)
    cases stops with
    | ended => exact .inl ⟨r, by rwa [List.append_nil], open', rfl⟩
    | token rest refused =>
      refine .inr ⟨front, _, rest, r, rfl, walked, refused, ?_⟩
      rw [fault, open']
      rfl
  · rename_i value left found
    obtain ⟨taken, split, reads, stopped⟩ := Level.takes_rule .sum _ _ _ found
    obtain ⟨place, ends, last, walked⟩ := reads.passes taken 0 rfl
    obtain ⟨rest, _⟩ := left
    cases split
    cases rest with
    | nil => cases failed
    | cons t rest =>
      cases failed
      refine .inr ⟨taken, t, rest, _, rfl, walked, after_eq_none ends last stopped fun _ => rfl, ?_⟩
      rw [fault, if_pos (by simp [isFinished, ends])]

section Viable

theorem exists_of_isComplete (complete : IsComplete n (row.map Located.token)) :
    ∃ r, walk n start row = some r ∧ r.isFinished := by
  obtain ⟨e, reads⟩ := complete
  obtain ⟨place, ends, -, walked⟩ := reads.passes row 0 rfl
  exact ⟨_, walked, by simp [isFinished, ends]⟩

theorem isComplete_of_walk (walked : walk n start row = some r) (finished : r.isFinished) :
    IsComplete n (row.map Located.token) := by
  cases outcome : Source.complete (Rule.sum n) ⟨row, 0⟩ with
  | ok e =>
    have shallow : Source.checkNesting (deepest 0 (row.map Located.token)) 0 row = .ok () :=
      Source.checkNesting_eq_ok (Nat.le_refl _)
    have parsed := Source.parseTokens_eq_ok_iff.mpr ⟨shallow, outcome⟩
    exact ⟨e, (Source.parseTokens_sum_eq_ok_iff.mp parsed).2⟩
  | error e =>
    obtain ⟨q, walked', open', -⟩ | ⟨front, t, rest, q, rfl, walked', refused, -⟩ :=
      exists_of_complete_eq_error outcome
    · obtain rfl := Option.some.inj (walked.symm.trans walked')
      rw [finished] at open'
      cases open'
    · rw [walk_eq_none walked' refused] at walked
      cases walked

theorem isComplete_iff (walked : walk n start row = some r) :
    IsComplete n (row.map Located.token) ↔ r.isFinished := by
  refine ⟨fun complete => ?_, isComplete_of_walk walked⟩
  obtain ⟨q, walked', finished⟩ := exists_of_isComplete complete
  rwa [Option.some.inj (walked.symm.trans walked')]

/-- The rows with which an expression begins are those that can be walked over. -/
theorem isViable_iff : IsViable n (row.map Located.token) ↔ ∃ r, walk n start row = some r := by
  constructor
  · intro viable
    obtain ⟨more, e, reads⟩ := viable
    let after : List Located := more.map fun t => ⟨t, 0⟩
    have line : (row ++ after).map Located.token = row.map Located.token ++ more := by
      simp [after, Function.comp_def]
    rw [← line] at reads
    obtain ⟨place, -, -, walked⟩ := reads.passes _ 0 rfl
    rw [walk_append] at walked
    obtain ⟨r, walked, -⟩ := Option.bind_eq_some_iff.mp walked
    exact ⟨r, walked⟩
  · intro walks
    obtain ⟨r, walked⟩ := walks
    obtain ⟨more, q, walked', finished⟩ := exists_walk_finishing (n := n) r
    have whole : walk n start (row ++ more) = some q := by
      rw [walk_append_of_eq_some walked, walked']
    obtain ⟨e, reads⟩ := isComplete_of_walk whole finished
    rw [List.map_append] at reads
    exact ⟨_, e, reads⟩

theorem isViable_append_iff (walked : walk n start row = some r) (t : Located) :
    IsViable n (row.map Located.token ++ [t.token]) ↔ ∃ q, r.after n t = some q := by
  have line : row.map Located.token ++ [t.token] = (row ++ [t]).map Located.token := by simp
  rw [line, isViable_iff, walk_append_of_eq_some walked, walk_cons]
  simp [walk]

theorem not_isViable_append_iff (walked : walk n start row = some r) (t : Located) :
    ¬ IsViable n (row.map Located.token ++ [t.token]) ↔ r.after n t = none := by
  rw [isViable_append_iff walked, not_exists, Option.eq_none_iff_forall_ne_some]

end Viable

section Literals

variable {offset : Nat}

theorem admitsLiteral_iff (walked : walk n start front = some r) :
    AdmitsLiteral n (front.map Located.token) ↔ r.place.awaitsLiteral := by
  constructor
  · intro admits
    obtain ⟨t, isLiteral, viable⟩ := admits
    obtain ⟨q, next⟩ := (isViable_append_iff walked ⟨t, 0⟩).mp viable
    exact after_isLiteral isLiteral next
  · intro awaits
    exact ⟨n.zero, n.isLiteral_zero,
      (isViable_append_iff walked ⟨n.zero, 0⟩).mpr ⟨_, after_zero awaits⟩⟩

theorem place_of_isSign {before : List Located} {sign : Located}
    (walked : walk n start (before ++ [sign]) = some r) (isSign : IsSign n before sign) :
    r.place = .sign sign.offset := by
  obtain ⟨minus, viable⟩ := isSign
  rw [walk_append] at walked
  obtain ⟨q, walked', last⟩ := Option.bind_eq_some_iff.mp walked
  obtain ⟨q', next⟩ := (isViable_append_iff walked' ⟨.openParen, 0⟩).mp viable
  have due := after_openParen rfl next
  have signed : q.after n sign = some ⟨.sign sign.offset, q.opened⟩ := by
    simp only [after, due, minus]
  rw [walk_cons_of_eq_some signed] at last
  obtain rfl := Option.some.inj last
  rfl

theorem exists_isSign (walked : walk n start front = some r) (place : r.place = .sign offset) :
    ∃ before sign, front = before ++ [sign] ∧ IsSign n before sign := by
  obtain rfl | ⟨before, sign, rfl⟩ := List.eq_nil_or_concat' front
  · obtain rfl := Option.some.inj walked
    cases place
  · refine ⟨before, sign, rfl, ?_⟩
    rw [walk_append] at walked
    obtain ⟨q, walked', last⟩ := Option.bind_eq_some_iff.mp walked
    rw [walk_cons] at last
    obtain ⟨q', next, final⟩ := Option.bind_eq_some_iff.mp last
    obtain rfl := Option.some.inj final
    obtain ⟨due, minus, -⟩ := after_eq_sign next place
    have opens : q.after n ⟨.openParen, 0⟩ = some ⟨.operand, q.opened + 1⟩ := by
      simp only [after, due]
    exact ⟨minus, (isViable_append_iff walked' ⟨.openParen, 0⟩).mpr ⟨_, opens⟩⟩

end Literals

section Blamed

/-- The error at the first token that may not come next is the one that the grammar asks for. -/
theorem blamed_fault (walked : walk n start front = some r) (refused : r.after n t = none) :
    Blamed n front t (r.fault n t) := by
  have complete := isComplete_iff walked
  have admits := admitsLiteral_iff walked
  have unfinished (incomplete : ¬ IsComplete n (front.map Located.token)) :
      r.fault n t = r.place.error n t := if_neg fun finished => incomplete (complete.mpr finished)
  constructor
  · exact fun isComplete => if_pos (complete.mp isComplete)
  · intro incomplete isLiteral admitted unsigned
    rw [unfinished incomplete]
    obtain ⟨place, opened⟩ := r
    cases place with
    | operand => exact error_operand isLiteral refused
    | sign offset =>
      obtain ⟨before, sign, split, isSign⟩ := exists_isSign walked rfl
      exact absurd isSign (unsigned before sign split)
    | segment | name | value => cases admits.mp admitted
  · intro incomplete isLiteral admitted before sign split isSign
    rw [unfinished incomplete]
    rw [split] at walked
    have place := place_of_isSign walked isSign
    obtain ⟨_, opened⟩ := r
    obtain rfl : _ = Place.sign sign.offset := place
    exact error_sign isLiteral refused
  · intro incomplete other
    rw [unfinished incomplete]
    exact ⟨_, error_other fun both => other ⟨both.1, admits.mpr both.2⟩⟩

end Blamed

theorem split_unique {r' : Spot} {front' back back' : List Located} {k k' : Located}
    (walked : walk n s front = some r) (refused : r.after n k = none)
    (walked' : walk n s front' = some r') (refused' : r'.after n k' = none)
    (same : front ++ k :: back = front' ++ k' :: back') : front = front' ∧ k = k' := by
  induction front generalizing front' s with
  | nil =>
    obtain rfl := Option.some.inj walked
    cases front' with
    | nil => exact ⟨rfl, (List.cons.inj same).1⟩
    | cons t front' =>
      obtain ⟨rfl, -⟩ := List.cons.inj same
      rw [walk_cons, refused] at walked'
      cases walked'
  | cons t front ih =>
    cases front' with
    | nil =>
      obtain rfl := Option.some.inj walked'
      obtain ⟨rfl, -⟩ := List.cons.inj same
      rw [walk_cons, refused'] at walked
      cases walked
    | cons t' front' =>
      obtain ⟨rfl, rest⟩ := List.cons.inj same
      rw [walk_cons] at walked walked'
      obtain ⟨q, next, within⟩ := Option.bind_eq_some_iff.mp walked
      rw [next] at walked'
      obtain ⟨rfl, rfl⟩ := ih within walked' rest
      exact ⟨rfl, rfl⟩

end Spot

namespace Source

open Spot

variable {n : Numeric} {limit stop : Nat} {tokens : List Located} {e : ParseError}

/-- A row that is no expression for want of more tokens is reported at its end, and any other at the
first token with which it stops being viable. -/
theorem parseTokens_sum_eq_error (shallow : checkNesting limit 0 tokens = .ok ())
    (failed : parseTokens (Rule.sum n) limit ⟨tokens, stop⟩ = .error e) :
    (IsViable n (tokens.map Located.token) → ∃ expected, e = .unexpectedEndOfInput expected stop) ∧
      (¬ IsViable n (tokens.map Located.token) → ∃ front k back, tokens = front ++ k :: back ∧
        IsViable n (front.map Located.token) ∧
        ¬ IsViable n (front.map Located.token ++ [k.token])) ∧
      ∀ front k back, tokens = front ++ k :: back → IsViable n (front.map Located.token) →
        ¬ IsViable n (front.map Located.token ++ [k.token]) → Blamed n front k e := by
  have incomplete : complete (Rule.sum n) ⟨tokens, stop⟩ = .error e := by
    rw [parseTokens, shallow] at failed
    exact failed
  obtain ⟨r, walked, -, rfl⟩ | ⟨front, t, rest, r, rfl, walked, refused, rfl⟩ :=
    exists_of_complete_eq_error incomplete
  · refine ⟨fun _ => ⟨_, rfl⟩, fun inviable => absurd (isViable_iff.mpr ⟨r, walked⟩) inviable, ?_⟩
    intro front k back split viable inviable
    obtain ⟨q, walked'⟩ := isViable_iff.mp viable
    have refused := (not_isViable_append_iff walked' k).mp inviable
    rw [split, walk_eq_none walked' refused] at walked
    cases walked
  · have inviable := (not_isViable_append_iff walked t).mpr refused
    refine ⟨fun viable => ?_, fun _ => ⟨front, t, rest, rfl, isViable_iff.mpr ⟨r, walked⟩,
      inviable⟩, ?_⟩
    · obtain ⟨q, walked'⟩ := isViable_iff.mp viable
      rw [walk_eq_none walked refused] at walked'
      cases walked'
    · intro front' k back split viable inviable'
      obtain ⟨q, walked'⟩ := isViable_iff.mp viable
      have refused' := (not_isViable_append_iff walked' k).mp inviable'
      obtain ⟨rfl, rfl⟩ := split_unique walked refused walked' refused' split
      exact blamed_fault walked refused

def overdraft : List Located :=
  [⟨.identifier "x", 0⟩, ⟨.arithmetic .mul, 2⟩, ⟨.arithmetic .sub, 4⟩, ⟨.int 3000000000, 5⟩]

example : Source.tokens "x * -3000000000" = .ok overdraft := by rfl

theorem parseTokens_sum_overdraft :
    checkNesting 0 0 overdraft = .ok () ∧
      parseTokens (Rule.sum (.whole .int)) 0 ⟨overdraft, 15⟩ =
        .error (.literalTooLarge "-3000000000" 4) ∧
      (IsViable (.whole .int) (overdraft.map Located.token) →
        ∃ expected, ParseError.literalTooLarge "-3000000000" 4 =
          .unexpectedEndOfInput expected 15) ∧
      ∀ front k back, overdraft = front ++ k :: back →
        IsViable (.whole .int) (front.map Located.token) →
        ¬ IsViable (.whole .int) (front.map Located.token ++ [k.token]) →
        Blamed (.whole .int) front k (.literalTooLarge "-3000000000" 4) := by
  have shallow : checkNesting 0 0 overdraft = .ok () := rfl
  have failed : parseTokens (Rule.sum (.whole .int)) 0 ⟨overdraft, 15⟩ =
      .error (.literalTooLarge "-3000000000" 4) := rfl
  have blamed := parseTokens_sum_eq_error shallow failed
  exact ⟨shallow, failed, blamed.1, blamed.2.2⟩

end Source

end Formula
