import Formula.Proofs.Grammar

/-! What the rows of the grammar look like: their ends, their tokens and their parentheses. -/

namespace Formula

theorem getLast?_append_cons {α : Type} (ls : List α) {rs : List α} {t : α} (present : rs ≠ []) :
    (ls ++ t :: rs).getLast? = rs.getLast? := by
  cases rs with
  | nil => contradiction
  | cons r rs => simp [List.getLast?_cons]

section Located

variable {taken : List Located} {ts ls rs : List Token} {t : Token}

theorem exists_of_map_eq_append_cons (row : taken.map Located.token = ls ++ t :: rs) :
    ∃ left separator right, taken = left ++ separator :: right ∧
      left.map Located.token = ls ∧ separator.token = t ∧ right.map Located.token = rs := by
  rcases List.map_eq_append_iff.mp row with ⟨left, back, rfl, leftRow, backRow⟩
  rcases List.map_eq_cons_iff.mp backRow with ⟨separator, right, rfl, token, rightRow⟩
  exact ⟨left, separator, right, rfl, leftRow, token, rightRow⟩

theorem exists_of_map_eq_parenthesized
    (row : taken.map Located.token = .openParen :: ts ++ [.closeParen]) :
    ∃ first inside last, taken = first :: inside ++ [last] ∧ first.token = .openParen ∧
      inside.map Located.token = ts ∧ last.token = .closeParen := by
  rcases exists_of_map_eq_append_cons row with ⟨front, last, back, rfl, frontRow, closed, backRow⟩
  rcases List.map_eq_cons_iff.mp frontRow with ⟨first, inside, rfl, opened, insideRow⟩
  rw [List.map_eq_nil_iff.mp backRow]
  exact ⟨first, inside, last, rfl, opened, insideRow, closed⟩

end Located

section Ends

variable {n : Numeric} {level : Level} {ts : List Token}

theorem ReadsName.exists_cons {name : String} (reads : ReadsName ts name) :
    ∃ text more, ts = .identifier text :: more := by
  induction reads with
  | identifier text => exact ⟨text, [], rfl⟩
  | dotted text _ ih =>
    rcases ih with ⟨first, more, rfl⟩
    exact ⟨first, _, rfl⟩

theorem ReadsName.exists_identifier {taken : List Located} {name : String}
    (reads : ReadsName (taken.map Located.token) name) :
    ∃ t text rest, taken = t :: rest ∧ t.token = .identifier text := by
  rcases reads.exists_cons with ⟨text, more, shape⟩
  rcases List.map_eq_cons_iff.mp shape with ⟨t, rest, rfl, word, -⟩
  exact ⟨t, text, rest, rfl, word⟩

theorem ReadsName.exists_getLast? {name : String} (reads : ReadsName ts name) :
    ∃ text, ts.getLast? = some (.identifier text) := by
  cases reads with
  | identifier => exact ⟨name, rfl⟩
  | dotted text => exact ⟨text, by simp⟩

theorem ReadsName.ne_nil {name : String} (reads : ReadsName ts name) : ts ≠ [] := by
  intro same
  subst same
  rcases reads.exists_getLast? with ⟨text, last⟩
  cases last

theorem ReadsNumber.ne_nil {e : Expr (.number n)} (reads : ReadsNumber n level ts e) :
    ts ≠ [] := by
  induction reads with
  | name reads => exact reads.ne_nil
  | factor _ ih | product _ ih => exact ih
  | _ => simp

theorem ReadsOperand.ne_nil {o : Ordered} {e : Expr (.ordered o)} (reads : ReadsOperand o ts e) :
    ts ≠ [] := by
  cases reads with
  | stringName reads | instantName reads => exact reads.ne_nil
  | number reads => exact reads.ne_nil
  | _ => simp

theorem ReadsNumber.exists_factor {e : Expr (.number n)} (reads : ReadsNumber n level ts e) :
    ∃ front more e', ts = front ++ more ∧ ReadsNumber n .factor front e' ∧
      (more = [] ∨ ∃ op more', more = .arithmetic op :: more') := by
  induction reads with
  | parenthesized reads => exact ⟨_, [], _, by simp, .parenthesized reads, .inl rfl⟩
  | name reads => exact ⟨_, [], _, by simp, .name reads, .inl rfl⟩
  | literal denotes => exact ⟨_, [], _, by simp, .literal denotes, .inl rfl⟩
  | negated denotes => exact ⟨_, [], _, by simp, .negated denotes, .inl rfl⟩
  | factor _ ih | product _ ih => exact ih
  | @scaled op ls rs _ _ _ _ _ ih | @shifted op ls rs _ _ _ _ _ ih =>
    rcases ih with ⟨front, more, e', rfl, reads, ends⟩
    refine ⟨front, more ++ .arithmetic op :: rs, e', by simp, reads, .inr ?_⟩
    rcases ends with rfl | ⟨op', more', rfl⟩
    · exact ⟨op, rs, rfl⟩
    · exact ⟨op', _, rfl⟩

end Ends

section Tokens

variable {n m : Numeric} {level : Level} {ts : List Token}

/-- Whether the token may stand in an operand of the kind. -/
def Token.serves (o : Ordered) : Token → Bool
  | .string _ => o == .string
  | .instant _ => o == .instant
  | .int _ => o == .number (.whole .int)
  | .long _ => o == .number (.whole .long)
  | .double _ => o == .number .double
  | .identifier _ | .dot => true
  | .arithmetic _ | .openParen | .closeParen => o != .string && o != .instant
  | .boolean _ | .relation _ | .connective _ => false

theorem ReadsName.serves {name : String} (reads : ReadsName ts name) (o : Ordered) :
    ∀ t ∈ ts, t.serves o := by
  induction reads with
  | identifier text => simp [Token.serves]
  | dotted text _ ih =>
    intro t present
    rcases List.mem_append.1 present with present | present
    · exact ih t present
    · simp only [List.mem_cons, List.not_mem_nil, or_false] at present
      rcases present with rfl | rfl <;> rfl

theorem Numeric.Denotes.serves_iff {o : Ordered} {negative : Bool} {t : Token}
    {value : n.Carrier} (denotes : n.Denotes negative t value) :
    t.serves o ↔ o = .number n := by
  cases n with
  | double =>
    rcases denotes with ⟨x, rfl, -⟩
    simp [Token.serves]
  | whole width =>
    rcases denotes with ⟨digits, rfl, -⟩
    cases width <;> simp [Token.whole, Token.serves]

theorem ReadsNumber.serves {e : Expr (.number n)} (reads : ReadsNumber n level ts e) :
    ∀ t ∈ ts, t.serves (.number n) := by
  induction reads with
  | parenthesized _ ih =>
    intro t present
    simp only [List.cons_append, List.mem_cons, List.mem_append, List.not_mem_nil,
      or_false] at present
    rcases present with rfl | present | rfl
    · rfl
    · exact ih t present
    · rfl
  | name reads => exact reads.serves _
  | literal denotes => simpa using denotes.serves_iff.mpr rfl
  | negated denotes => simpa [Token.serves] using denotes.serves_iff.mpr rfl
  | factor _ ih | product _ ih => exact ih
  | scaled _ _ _ ih ih' | shifted _ _ _ ih ih' =>
    intro t present
    rcases List.mem_append.1 present with present | present
    · exact ih t present
    · rcases List.mem_cons.1 present with rfl | present
      · rfl
      · exact ih' t present

theorem ReadsOperand.serves {o : Ordered} {e : Expr (.ordered o)} (reads : ReadsOperand o ts e) :
    ∀ t ∈ ts, t.serves o := by
  cases reads with
  | stringName reads | instantName reads => exact reads.serves _
  | number reads => exact reads.serves
  | _ => simp [Token.serves]

/-- A row without literals reads in every kind of number. -/
theorem ReadsNumber.transfer {e : Expr (.number n)} (reads : ReadsNumber n level ts e)
    (serves : ∀ t ∈ ts, t.serves (.number m)) (other : m ≠ n) :
    ∃ e', ReadsNumber m level ts e' := by
  induction reads with
  | parenthesized _ ih =>
    rcases ih fun t present => serves t (by simp [present]) with ⟨e', reads⟩
    exact ⟨e', .parenthesized reads⟩
  | name reads => exact ⟨_, .name reads⟩
  | literal denotes | negated denotes =>
    exact absurd (Ordered.number.inj (denotes.serves_iff.mp (serves _ (by simp)))) other
  | factor _ ih =>
    rcases ih serves with ⟨e', reads⟩
    exact ⟨e', .factor reads⟩
  | product _ ih =>
    rcases ih serves with ⟨e', reads⟩
    exact ⟨e', .product reads⟩
  | scaled operator _ _ ih ih' =>
    rcases ih fun t present => serves t (by simp [present]) with ⟨l, reads⟩
    rcases ih' fun t present => serves t (by simp [present]) with ⟨r, reads'⟩
    exact ⟨_, .scaled operator reads reads'⟩
  | shifted operator _ _ ih ih' =>
    rcases ih fun t present => serves t (by simp [present]) with ⟨l, reads⟩
    rcases ih' fun t present => serves t (by simp [present]) with ⟨r, reads'⟩
    exact ⟨_, .shifted operator reads reads'⟩

theorem ReadsOperand.relation_not_mem {o : Ordered} {e : Expr (.ordered o)}
    (reads : ReadsOperand o ts e) (op : Relation) : .relation op ∉ ts :=
  fun present => by simpa [Token.serves] using reads.serves _ present

theorem append_relation_inj {ls ls' rs rs' : List Token} {op op' : Relation}
    (plain : ∀ op, .relation op ∉ ls) (plain' : ∀ op, .relation op ∉ ls')
    (same : ls ++ .relation op :: rs = ls' ++ .relation op' :: rs') :
    ls = ls' ∧ op = op' ∧ rs = rs' := by
  induction ls generalizing ls' with
  | nil =>
    cases ls' with
    | nil => simpa using same
    | cons t ls' =>
      simp only [List.nil_append, List.cons_append, List.cons.injEq] at same
      exact absurd (by simp [← same.1]) (plain' op)
  | cons t ls ih =>
    cases ls' with
    | nil =>
      simp only [List.nil_append, List.cons_append, List.cons.injEq] at same
      exact absurd (by simp [same.1]) (plain op')
    | cons t' ls' =>
      simp only [List.cons_append, List.cons.injEq] at same
      rcases same with ⟨rfl, same⟩
      obtain ⟨rfl, rfl, rfl⟩ := ih (fun op present => plain op (by simp [present]))
        (fun op present => plain' op (by simp [present])) same
      exact ⟨rfl, rfl, rfl⟩

end Tokens

section Parentheses

variable {ts us : List Token}

/-- The number of open parentheses after a token, unless it closes one that is not open. -/
def Token.nest (opened : Nat) : Token → Option Nat
  | .openParen => some (opened + 1)
  | .closeParen => if opened = 0 then none else some (opened - 1)
  | _ => some opened

/-- The row closes all parentheses that it opens and no others. -/
def Balanced (ts : List Token) : Prop := ∀ opened, ts.foldlM Token.nest opened = some opened

theorem balanced_nil : Balanced [] := fun _ => rfl

theorem balanced_append (balanced : Balanced ts) (balanced' : Balanced us) :
    Balanced (ts ++ us) := by
  intro opened
  rw [List.foldlM_append, balanced opened]
  exact balanced' opened

theorem balanced_cons {t : Token} (plain : ∀ opened, t.nest opened = some opened)
    (balanced : Balanced ts) : Balanced (t :: ts) := by
  intro opened
  rw [List.foldlM_cons, plain opened]
  exact balanced opened

theorem balanced_parenthesized (balanced : Balanced ts) :
    Balanced (.openParen :: ts ++ [.closeParen]) := by
  intro opened
  have opens : Token.nest opened .openParen = some (opened + 1) := rfl
  rw [List.cons_append, List.foldlM_cons, opens, Option.bind_eq_bind, Option.bind_some,
    List.foldlM_append, balanced (opened + 1)]
  rfl

theorem ReadsName.nest {name : String} (reads : ReadsName ts name) {t : Token} (present : t ∈ ts)
    (opened : Nat) : t.nest opened = some opened := by
  have serves := reads.serves .string t present
  cases t <;> first | rfl | cases serves

theorem balanced_of_nest (plain : ∀ t ∈ ts, ∀ opened, t.nest opened = some opened) :
    Balanced ts := by
  induction ts with
  | nil => exact balanced_nil
  | cons t ts ih =>
    exact balanced_cons (plain t (by simp)) (ih fun t' present => plain t' (by simp [present]))

theorem ReadsName.balanced {name : String} (reads : ReadsName ts name) : Balanced ts :=
  balanced_of_nest fun _ present => reads.nest present

theorem Numeric.Denotes.nest {n : Numeric} {negative : Bool} {t : Token} {value : n.Carrier}
    (denotes : n.Denotes negative t value) (opened : Nat) : t.nest opened = some opened := by
  cases n with
  | double =>
    rcases denotes with ⟨x, rfl, -⟩
    rfl
  | whole width =>
    rcases denotes with ⟨digits, rfl, -⟩
    cases width <;> rfl

theorem ReadsNumber.balanced {n : Numeric} {level : Level} {e : Expr (.number n)}
    (reads : ReadsNumber n level ts e) : Balanced ts := by
  induction reads with
  | parenthesized _ ih => exact balanced_parenthesized ih
  | name reads => exact reads.balanced
  | literal denotes => exact balanced_cons denotes.nest balanced_nil
  | negated denotes => exact balanced_cons (fun _ => rfl) (balanced_cons denotes.nest balanced_nil)
  | factor _ ih | product _ ih => exact ih
  | scaled _ _ _ ih ih' | shifted _ _ _ ih ih' =>
    exact balanced_append ih (balanced_cons (fun _ => rfl) ih')

theorem ReadsOperand.balanced {o : Ordered} {e : Expr (.ordered o)}
    (reads : ReadsOperand o ts e) : Balanced ts := by
  cases reads with
  | stringName reads | instantName reads => exact reads.balanced
  | number reads => exact reads.balanced
  | _ => exact balanced_cons (fun _ => rfl) balanced_nil

theorem ReadsCondition.balanced {allowed : Ordered → List Token → List Token → Prop}
    {clause : Clause} {e : Expr .boolean} (reads : ReadsCondition allowed clause ts e) :
    Balanced ts := by
  induction reads with
  | comparison reads reads' _ =>
    exact balanced_append reads.balanced (balanced_cons (fun _ => rfl) reads'.balanced)
  | parenthesized _ ih => exact balanced_parenthesized ih
  | literal b => exact balanced_cons (fun _ => rfl) balanced_nil
  | name reads => exact reads.balanced
  | term _ ih => exact ih
  | joined _ _ ih ih' => exact balanced_append ih (balanced_cons (fun _ => rfl) ih')

theorem append_closeParen_inj {rest rest' : List Token} (balanced : Balanced ts)
    (balanced' : Balanced us)
    (same : ts ++ .closeParen :: rest = us ++ .closeParen :: rest') : ts = us ∧ rest = rest' := by
  -- A longer row would close a parenthesis that it has not opened.
  have closes {ts us more : List Token} (balanced : Balanced ts) (balanced' : Balanced us)
      (longer : us = ts ++ .closeParen :: more) : False := by
    have closed := balanced' 0
    rw [longer, List.foldlM_append, balanced 0] at closed
    cases closed
  rcases List.append_eq_append_iff.mp same with ⟨more, longer, tail⟩ | ⟨more, longer, tail⟩ <;>
    cases more with
    | nil => simp_all
    | cons t more =>
      simp only [List.cons_append, List.cons.injEq] at tail
      rw [← tail.1] at longer
      first | exact (closes balanced balanced' longer).elim
            | exact (closes balanced' balanced longer).elim

end Parentheses

end Formula
