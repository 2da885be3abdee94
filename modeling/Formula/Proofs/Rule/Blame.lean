import Formula.Proofs.Rule.Spot

/-! Where the rules of arithmetic fail: at the first token that may not come next, and for the reason
that its spot gives. -/

namespace Formula

namespace Spot

inductive Stops (n : Numeric) (s : Spot) (stop : Nat) : List Located → ParseError → Prop
  | ended : Stops n s stop [] (.unexpectedEndOfInput (s.place.expected n) stop)
  | token {t : Located} (rest : List Located) :
      s.after n t = none → Stops n s stop (t :: rest) (s.place.error n t)

def Unfinished (outer : Nat) (s : Spot) : Prop := s.place.ends → outer < s.opened

/-- From the spot the row of tokens is walked until it stops, before an operand is complete. -/
def Refuses (n : Numeric) (s : Spot) (outer : Nat) (c : Cursor) (e : ParseError) : Prop :=
  ∃ front back r, c.tokens = front ++ back ∧ walk n s front = some r ∧ r.Unfinished outer ∧
    r.Stops n c.stop back e

variable {α : Type} {n : Numeric} {s r : Spot} {outer opened stop : Nat} {c left : Cursor}
  {e : ParseError}

theorem Stops.refuses (stops : s.Stops n c.stop c.tokens e) (unfinished : s.Unfinished outer) :
    Refuses n s outer c e :=
  ⟨[], c.tokens, s, rfl, rfl, unfinished, stops⟩

theorem Stops.refuses_of_due (stops : s.Stops n c.stop c.tokens e) (due : s.place.ends = false) :
    Refuses n s outer c e :=
  stops.refuses fun ended => absurd (due.symm.trans ended) Bool.false_ne_true

theorem Refuses.walk {taken rest : List Located} (walked : walk n s taken = some r)
    (refuses : Refuses n r outer ⟨rest, stop⟩ e) : Refuses n s outer ⟨taken ++ rest, stop⟩ e := by
  obtain ⟨front, back, q, rfl, walked', unfinished, stops⟩ := refuses
  refine ⟨taken ++ front, back, q, (List.append_assoc _ _ _).symm, ?_, unfinished, stops⟩
  rw [walk_append_of_eq_some walked, walked']

theorem Refuses.next {t : Located} {rest : List Located} (step : s.after n t = some r)
    (refuses : Refuses n r outer ⟨rest, stop⟩ e) : Refuses n s outer ⟨t :: rest, stop⟩ e := by
  have walked : Spot.walk n s [t] = some r := walk_cons_of_eq_some step []
  exact refuses.walk walked

theorem Refuses.mono (refuses : Refuses n s opened c e) (wider : outer ≤ opened) :
    Refuses n s outer c e := by
  obtain ⟨front, back, q, split, walked, unfinished, stops⟩ := refuses
  exact ⟨front, back, q, split, walked, fun ends => Nat.lt_of_le_of_lt wider (unfinished ends), stops⟩

theorem stops_take {expected : String} {read : Token → Option α}
    (due : s.place.expected n = expected) (plain : ∀ t, s.place.literal? n t = none)
    (refused : ∀ t rest, c.tokens = t :: rest → read t.token = none → s.after n t = none)
    (failed : Rule.take expected read c = .error e left) : s.Stops n c.stop c.tokens e := by
  obtain ⟨tokens, stop⟩ := c
  subst due
  cases tokens with
  | nil =>
    cases failed
    exact .ended
  | cons t rest =>
    rw [Rule.take_cons] at failed
    split at failed
    · cases failed
    · cases failed
      have error : s.place.error n t =
          .unexpectedToken t.token.text (s.place.expected n) t.offset := by
        rw [Place.error, plain t]
      rw [← error]
      exact .token rest (refused t rest rfl ‹_›)

theorem stops_literal {negative : Bool} {start : Nat} (due : s.place.expected n = n.expected)
    (reads : ∀ t rest, c.tokens = t :: rest →
      s.after n t = s.literal n t ∧ s.place.literal? n t = n.literal? negative start t.token)
    (failed : Rule.literal n negative start c = .error e left) :
    s.Stops n c.stop c.tokens e := by
  obtain ⟨tokens, stop⟩ := c
  cases tokens with
  | nil =>
    cases failed
    rw [← due]
    exact .ended
  | cons t rest =>
    obtain ⟨next, reading⟩ := reads t rest rfl
    rw [Rule.literal_cons, ← reading, ← due] at failed
    cases found : s.place.literal? n t with
    | none =>
      rw [found] at failed
      cases failed
      have error : s.place.error n t =
          .unexpectedToken t.token.text (s.place.expected n) t.offset := by
        rw [Place.error, found]
      rw [← error]
      exact .token rest (by rw [next, literal, found])
    | some outcome =>
      rw [found] at failed
      cases outcome with
      | ok value => cases failed
      | error e =>
        cases failed
        have error : s.place.error n t = e := by rw [Place.error, found]
        rw [← error]
        exact .token rest (by rw [next, literal, found])

theorem refuses_chainFrom {operand : Rule α} {join : Token → Option (α → α → α)} {bound : Nat}
    (between : Spot → Prop)
    (takes : Rule.Takes operand fun ts _ _ => ∀ row, row.map Located.token = ts →
      ∃ q, between q ∧ Spot.walk n r row = some q)
    (refuses : ∀ c e after, c.tokens.length < bound → operand c = .error e after →
      Refuses n r outer c e)
    (joins : ∀ q t combine, between q → join t.token = some combine → q.after n t = some r)
    (steps : Nat) {value : α} (here : between s) (short : c.tokens.length < bound)
    (failed : Rule.chainFrom operand join steps value c = .error e left) :
    Refuses n s outer c e := by
  induction steps generalizing value c s with
  | zero => cases failed
  | succ steps ih =>
    obtain ⟨tokens, stop⟩ := c
    cases tokens with
    | nil => cases failed
    | cons t rest =>
      rw [Rule.chainFrom_cons] at failed
      split at failed
      · cases failed
      · rename_i combine joined
        apply Refuses.next (joins s t combine here joined)
        have shorter : rest.length < bound := Nat.lt_of_succ_lt short
        obtain failed | ⟨value', middle, found, failed'⟩ := Rule.bind_eq_error_iff.mp failed
        · exact refuses _ _ _ shorter failed
        · obtain ⟨taken, shape, walks⟩ := takes _ _ _ found
          obtain ⟨q, there, walked⟩ := walks taken rfl
          cases shape
          rw [List.length_append] at shorter
          have shortest : middle.tokens.length < bound := by omega
          exact Refuses.walk walked (ih there shortest failed')

/-- Where the rule fails on a short row, it is as an operand in any number of parentheses. -/
def Blames (n : Numeric) (rule : Rule α) (bound : Nat) : Prop :=
  ∀ c e after opened, c.tokens.length < bound → rule c = .error e after →
    Refuses n ⟨.operand, opened⟩ opened c e

theorem blames_chain {operand : Rule α} {join : Token → Option (α → α → α)} {bound : Nat}
    (takes : Rule.Takes operand fun ts _ _ => Passes n ts) (blames : Blames n operand bound)
    (joins : ∀ t combine, join t = some combine → ∃ op, t = .arithmetic op) :
    Blames n (Rule.chain operand join) bound := by
  intro c e after opened short failed
  rw [Rule.chain_eq_bind] at failed
  obtain failed | ⟨value, middle, found, failed'⟩ := Rule.bind_eq_error_iff.mp failed
  · exact blames _ _ _ _ short failed
  · have walks : Rule.Takes operand fun ts _ _ => ∀ row, row.map Located.token = ts →
        ∃ q : Spot, (q.place.ends ∧ q.opened = opened) ∧
          Spot.walk n ⟨.operand, opened⟩ row = some q := by
      refine takes.mono fun ts rest a passes row line => ?_
      obtain ⟨place, ends, -, walked⟩ := passes row opened line
      exact ⟨⟨place, opened⟩, ⟨ends, rfl⟩, walked⟩
    obtain ⟨taken, shape, passes⟩ := walks _ _ _ found
    obtain ⟨q, here, walked⟩ := passes taken rfl
    cases shape
    rw [List.length_append] at short
    have shorter : middle.tokens.length < bound := by omega
    refine Refuses.walk walked (refuses_chainFrom (c := middle) _ walks
      (fun c e after => blames c e after opened) ?_ _ here shorter failed')
    intro q t combine here joined
    obtain ⟨place, _⟩ := q
    obtain ⟨ends, rfl⟩ := here
    obtain ⟨op, isOp⟩ := joins _ _ joined
    rw [after_of_ends ends (by simp [isOp]), isOp]
    rfl

theorem stops_identifier (failed : Rule.identifier c = .error e left) :
    Stops n ⟨.segment, opened⟩ c.stop c.tokens e := by
  refine stops_take rfl (fun _ => rfl) ?_ failed
  intro t rest _ unread
  simp only [Spot.after]
  split
  · rename_i word
    rw [word] at unread
    cases unread
  · rfl

theorem refuses_name {kind : Kind} {t : Located} {rest : List Located} {text : String}
    (word : t.token = .identifier text)
    (failed : (Rule.name : Rule (Expr kind)) ⟨t :: rest, stop⟩ = .error e left) :
    Refuses n ⟨.operand, opened⟩ opened ⟨t :: rest, stop⟩ e := by
  have unread := Rule.map_eq_error_iff.mp failed
  rw [Rule.dottedName_eq, Rule.chain_eq_bind, Rule.bind_run, Rule.identifier_cons word] at unread
  apply Refuses.next (after_identifier (.inl rfl) word)
  have walks : Rule.Takes Rule.identifier fun ts _ _ => ∀ row, row.map Located.token = ts →
      ∃ q, q = ⟨.name, opened⟩ ∧ Spot.walk n ⟨.segment, opened⟩ row = some q := by
    refine Rule.takes_take.mono fun ts _ _ reading row line => ⟨_, rfl, ?_⟩
    obtain ⟨token, rfl, reading⟩ := reading
    obtain ⟨t, rfl, rfl⟩ := List.map_eq_singleton_iff.mp line
    split at reading
    · rename_i word
      rw [walk_cons_of_eq_some (after_identifier (.inr rfl) word)]
      rfl
    · cases reading
  refine refuses_chainFrom _ walks (fun c e left _ failed => ?_) ?_ _ rfl (Nat.lt_succ_self _) unread
  · exact (stops_identifier failed).refuses_of_due rfl
  · intro q t combine here joined
    subst here
    unfold Rule.joinName at joined
    split at joined
    · rename_i dot
      simp only [Spot.after, dot]
    · cases joined

/-- Where a sum ends, no other token may come next than the parenthesis that closes one around it. -/
theorem after_eq_none {ts rest : List Token} {place : Place} {t : Located} (ends : place.ends)
    (last : place = .name → ∃ text, ts.getLast? = some (.identifier text))
    (stopped : Level.sum.Ends ts (t.token :: rest)) (closed : t.token = .closeParen → opened = 0) :
    Spot.after n ⟨place, opened⟩ t = none := by
  have noDot : place = .name → t.token ≠ .dot := by
    intro isName dot
    obtain ⟨text, final⟩ := last isName
    exact stopped.name (congrArg some dot) text final
  rw [after_of_ends ends noDot]
  exact resume_eq_none (fun op isOp => nomatch stopped.operator op (congrArg some isOp)) closed

theorem stops_closeParen {ts : List Token} {place : Place} (ends : place.ends)
    (last : place = .name → ∃ text, ts.getLast? = some (.identifier text))
    (stopped : Level.sum.Ends ts (c.tokens.map Located.token))
    (failed : Rule.expect .closeParen c = .error e left) :
    Stops n ⟨place, opened⟩ c.stop c.tokens e := by
  have due : place.expected n = "')'" := by
    cases place with
    | name | value => rfl
    | operand | sign | segment => cases ends
  have plain (t : Located) : place.literal? n t = none := by
    cases place with
    | name | value => rfl
    | operand | sign | segment => cases ends
  refine stops_take due plain ?_ failed
  intro t rest split unread
  rw [split] at stopped
  refine after_eq_none ends last stopped fun closed => ?_
  rw [if_pos closed] at unread
  cases unread

theorem refuses_parenthesized {inner : Rule (Expr (.number n))} {bound : Nat}
    (takes : Rule.Takes inner fun ts rest e => ReadsNumber n .sum ts e ∧ Level.sum.Ends ts rest)
    (blames : Blames n inner bound) {t : Located} {rest : List Located}
    (isOpen : t.token = .openParen) (short : rest.length < bound)
    (failed : Rule.parenthesized inner ⟨t :: rest, stop⟩ = .error e left) :
    Refuses n ⟨.operand, opened⟩ opened ⟨t :: rest, stop⟩ e := by
  have start : Rule.expect .openParen ⟨t :: rest, stop⟩ = .ok () ⟨rest, stop⟩ := by
    rw [Rule.expect, Rule.take_cons, if_pos isOpen]
  have opens : Spot.after n ⟨.operand, opened⟩ t = some ⟨.operand, opened + 1⟩ := by
    simp only [Spot.after, isOpen]
  rw [Rule.parenthesized, Rule.bind_run, start] at failed
  apply Refuses.next opens
  obtain failed | ⟨value, middle, found, failed'⟩ := Rule.bind_eq_error_iff.mp failed
  · exact (blames _ _ _ (opened + 1) short failed).mono (Nat.le_succ opened)
  · obtain ⟨taken, split, reads, stopped⟩ := takes _ _ _ found
    obtain ⟨place, ends, last, walked⟩ := reads.passes taken (opened + 1) rfl
    obtain closing | ⟨_, _, _, finished⟩ := Rule.bind_eq_error_iff.mp failed'
    · cases split
      have stops : Stops n ⟨place, opened + 1⟩ _ _ e := stops_closeParen ends last stopped closing
      exact Refuses.walk walked (stops.refuses fun _ => Nat.lt_succ_self opened)
    · cases finished

theorem blames_factorOver {inner : Rule (Expr (.number n))} {bound : Nat}
    (takes : Rule.Takes inner fun ts rest e => ReadsNumber n .sum ts e ∧ Level.sum.Ends ts rest)
    (blames : Blames n inner bound) : Blames n (Rule.factorOver inner) (bound + 1) := by
  intro c e left opened short failed
  obtain ⟨tokens, stop⟩ := c
  cases tokens with
  | nil =>
    cases failed
    exact Stops.ended.refuses_of_due rfl
  | cons t rest =>
    rw [Rule.factorOver_cons] at failed
    split at failed
    · exact refuses_parenthesized takes blames ‹_› (Nat.lt_of_succ_lt_succ short) failed
    · exact refuses_name ‹_› failed
    · rename_i minus
      have signed : Spot.after n ⟨.operand, opened⟩ t = some ⟨.sign t.offset, opened⟩ := by
        simp only [Spot.after, minus]
      apply Refuses.next signed
      exact (stops_literal rfl (fun _ _ _ => ⟨rfl, rfl⟩) failed).refuses_of_due rfl
    · rename_i noParen noName noSign
      refine (stops_literal rfl (fun t' rest' shape => ⟨?_, ?_⟩) failed).refuses_of_due rfl
      · obtain ⟨rfl, rfl⟩ := List.cons.inj shape
        simp only [Spot.after]
      · obtain ⟨rfl, rfl⟩ := List.cons.inj shape
        rfl

theorem blames_sum (bound : Nat) : Blames n (Rule.sum n) bound := by
  induction bound with
  | zero => exact fun c e left opened short => absurd short (Nat.not_lt_zero _)
  | succ bound ih =>
    have factors : Blames n (Rule.factor n) (bound + 1) := by
      rw [Rule.factor_eq]
      exact blames_factorOver (Level.sum.takes_rule) ih
    have products : Blames n (Rule.product n) (bound + 1) := by
      rw [Rule.product_eq]
      refine blames_chain (Level.factor.takes_rule.mono fun _ _ _ reading => reading.1.passes)
        factors fun t combine joined => ?_
      obtain ⟨op, isOp, -⟩ := Rule.joinProduct_eq_some_iff.mp joined
      exact ⟨op, isOp⟩
    rw [Rule.sum_eq]
    refine blames_chain (Level.product.takes_rule.mono fun _ _ _ reading => reading.1.passes)
      products fun t combine joined => ?_
    obtain ⟨op, isOp, -⟩ := Rule.joinSum_eq_some_iff.mp joined
    exact ⟨op, isOp⟩

end Spot
end Formula
