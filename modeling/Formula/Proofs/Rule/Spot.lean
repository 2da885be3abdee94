import Formula.Proofs.Rule.Sum

/-! Arithmetic token by token: at every spot in a row, which token may come next. -/

namespace Formula

def Numeric.IsLiteral : Numeric → Token → Prop
  | .whole width, t => ∃ digits, t = .whole width digits
  | .double, t => ∃ x, t = .double x

namespace Numeric

variable {n : Numeric} {t : Token}

def zero : Numeric → Token
  | .whole width => .whole width 0
  | .double => .double (.signed false 0)

theorem isLiteral_zero : (n : Numeric) → n.IsLiteral n.zero
  | .whole _ => ⟨0, rfl⟩
  | .double => ⟨_, rfl⟩

theorem exists_denotes_zero (negative : Bool) :
    (n : Numeric) → ∃ value, n.Denotes negative n.zero value
  | .whole width => ⟨⟨0, by cases width <;> decide⟩, 0, rfl, by cases negative <;> rfl⟩
  | .double => ⟨_, _, rfl, rfl⟩

theorem literal?_of_isLiteral (literal : n.IsLiteral t) (negative : Bool) (start : Nat) :
    (∃ value, n.literal? negative start t = some (.ok value)) ∨
      n.literal? negative start t = some (.error (literalTooLarge negative start t)) := by
  cases n with
  | double =>
    obtain ⟨x, rfl⟩ := literal
    exact .inl ⟨_, rfl⟩
  | whole width =>
    obtain ⟨digits, rfl⟩ := literal
    rw [literal?, digits?_eq_some_iff.mpr rfl, Option.map_some]
    cases Whole.ofInt? width (signed negative digits) with
    | some value => exact .inl ⟨value, rfl⟩
    | none => exact .inr rfl

theorem literal?_eq_none (other : ¬ n.IsLiteral t) (negative : Bool) (start : Nat) :
    n.literal? negative start t = none := by
  cases n with
  | double => cases t <;> first | rfl | exact absurd ⟨_, rfl⟩ other
  | whole width =>
    rw [literal?, Option.map_eq_none_iff]
    exact Option.eq_none_iff_forall_ne_some.mpr fun digits found =>
      other ⟨digits, digits?_eq_some_iff.mp found⟩

end Numeric

inductive Place
  /-- Nothing, an operator or an open parenthesis, so that an operand is due. -/
  | operand
  /-- The minus sign of a literal, at an offset. -/
  | sign (start : Nat)
  /-- A dot within a name. -/
  | segment
  /-- An identifier. -/
  | name
  /-- A literal or a closed parenthesis. -/
  | value
  deriving DecidableEq

namespace Place

def ends : Place → Bool
  | .name | .value => true
  | .operand | .sign _ | .segment => false

def literal? (n : Numeric) (next : Located) : Place → Option (Except ParseError n.Carrier)
  | .operand => n.literal? false next.offset next.token
  | .sign start => n.literal? true start next.token
  | .segment | .name | .value => none

def awaitsLiteral : Place → Bool
  | .operand | .sign _ => true
  | .segment | .name | .value => false

theorem literal?_eq_none {n : Numeric} {t : Located} (other : ¬ n.IsLiteral t.token)
    (place : Place) : place.literal? n t = none := by
  cases place with
  | operand | sign => exact Numeric.literal?_eq_none other _ _
  | segment | name | value => rfl

def expected (n : Numeric) : Place → String
  | .operand | .sign _ => n.expected
  | .segment => "an identifier"
  | .name | .value => "')'"

def error (n : Numeric) (place : Place) (next : Located) : ParseError :=
  match place.literal? n next with
  | some (.error e) => e
  | _ => .unexpectedToken next.token.text (place.expected n) next.offset

end Place

/-- A spot in a row of arithmetic, with the number of parentheses that are open there. -/
structure Spot where
  place : Place
  opened : Nat
  deriving DecidableEq

namespace Spot

def resume (opened : Nat) : Token → Option Spot
  | .arithmetic _ => some ⟨.operand, opened⟩
  | .closeParen => if opened = 0 then none else some ⟨.value, opened - 1⟩
  | _ => none

def literal (n : Numeric) (s : Spot) (next : Located) : Option Spot :=
  match s.place.literal? n next with
  | some (.ok _) => some ⟨.value, s.opened⟩
  | _ => none

/-- The spot behind the next token, if the token may come next. -/
def after (n : Numeric) (s : Spot) (next : Located) : Option Spot :=
  match s.place with
  | .operand =>
    match next.token with
    | .openParen => some ⟨.operand, s.opened + 1⟩
    | .identifier _ => some ⟨.name, s.opened⟩
    | .arithmetic .sub => some ⟨.sign next.offset, s.opened⟩
    | _ => s.literal n next
  | .sign _ => s.literal n next
  | .segment =>
    match next.token with
    | .identifier _ => some ⟨.name, s.opened⟩
    | _ => none
  | .name =>
    match next.token with
    | .dot => some ⟨.segment, s.opened⟩
    | token => resume s.opened token
  | .value => resume s.opened next.token

/-- The spot behind a row, if the row may stand there. -/
def walk (n : Numeric) (s : Spot) (row : List Located) : Option Spot := row.foldlM (after n) s

variable {n : Numeric} {s r : Spot} {t : Located} {row rest : List Located}

theorem walk_append (s : Spot) (row rest : List Located) :
    walk n s (row ++ rest) = (walk n s row).bind fun r => walk n r rest :=
  List.foldlM_append

theorem walk_cons (s : Spot) (t : Located) (rest : List Located) :
    walk n s (t :: rest) = (s.after n t).bind fun r => walk n r rest :=
  List.foldlM_cons

theorem walk_append_of_eq_some (first : walk n s row = some r) (rest : List Located) :
    walk n s (row ++ rest) = walk n r rest := by
  rw [walk_append, first, Option.bind_some]

theorem walk_cons_of_eq_some (first : s.after n t = some r) (rest : List Located) :
    walk n s (t :: rest) = walk n r rest := by
  rw [walk_cons, first, Option.bind_some]

section Ends

variable {place : Place} {opened : Nat}

theorem after_of_ends (ends : place.ends) (plain : place = .name → t.token ≠ .dot) :
    after n ⟨place, opened⟩ t = resume opened t.token := by
  cases place with
  | name =>
    simp only [after]
    split
    · exact absurd ‹_› (plain rfl)
    · rfl
  | value => rfl
  | operand | sign | segment => cases ends

theorem resume_eq_none (operator : ∀ op, t.token ≠ .arithmetic op)
    (closed : t.token = .closeParen → opened = 0) : resume opened t.token = none := by
  unfold resume
  split
  · exact absurd ‹_› (operator _)
  · exact if_pos (closed ‹_›)
  · rfl

end Ends

section Operands

variable {opened : Nat} {text : String}

theorem after_identifier (due : s.place = .operand ∨ s.place = .segment)
    (word : t.token = .identifier text) : s.after n t = some ⟨.name, s.opened⟩ := by
  unfold after
  obtain place | place := due <;> rw [place, word]

theorem literal_eq_some {value : n.Carrier} (reading : s.place.literal? n t = some (.ok value)) :
    s.literal n t = some ⟨.value, s.opened⟩ := by
  rw [literal, reading]

theorem after_literal {value : n.Carrier} (denotes : n.Denotes false t.token value) :
    after n ⟨.operand, opened⟩ t = some ⟨.value, opened⟩ := by
  have reading : n.literal? false t.offset t.token = some (.ok value) :=
    Numeric.literal?_eq_ok_iff.mpr denotes
  have found : literal n ⟨.operand, opened⟩ t = some ⟨.value, opened⟩ := literal_eq_some reading
  unfold after
  cases n with
  | double =>
    obtain ⟨x, isDouble, -⟩ := denotes
    simp only [isDouble, found]
  | whole width =>
    obtain ⟨digits, isWhole, -⟩ := denotes
    cases width <;> simp only [isWhole, Token.whole, found]

end Operands

def Passes (n : Numeric) (ts : List Token) : Prop :=
  ∀ row opened, row.map Located.token = ts → ∃ place : Place, place.ends ∧
    (place = .name → ∃ text, ts.getLast? = some (.identifier text)) ∧
    walk n ⟨.operand, opened⟩ row = some ⟨place, opened⟩

section Passes

variable {ts ls rs : List Token}

theorem walk_of_readsName {name : String} (reads : ReadsName ts name)
    (line : row.map Located.token = ts) (opened : Nat) :
    walk n ⟨.operand, opened⟩ row = some ⟨.name, opened⟩ := by
  induction reads generalizing row with
  | identifier text =>
    obtain ⟨t, rfl, word⟩ := List.map_eq_singleton_iff.mp line
    rw [walk_cons_of_eq_some (after_identifier (.inl rfl) word)]
    rfl
  | dotted text _ ih =>
    obtain ⟨front, dot, back, rfl, frontRow, isDot, backRow⟩ := exists_of_map_eq_append_cons line
    obtain ⟨t, rfl, word⟩ := List.map_eq_singleton_iff.mp backRow
    have segment : after n ⟨.name, opened⟩ dot = some ⟨.segment, opened⟩ := by
      simp only [after, isDot]
    rw [walk_append_of_eq_some (ih frontRow), walk_cons_of_eq_some segment,
      walk_cons_of_eq_some (after_identifier (.inr rfl) word)]
    rfl

theorem passes_name {name : String} (reads : ReadsName ts name) : Passes n ts :=
  fun _ opened line =>
    ⟨.name, rfl, fun _ => reads.exists_getLast?, walk_of_readsName reads line opened⟩

theorem passes_literal {token : Token} {value : n.Carrier} (denotes : n.Denotes false token value) :
    Passes n [token] := by
  intro row opened line
  obtain ⟨t, rfl, rfl⟩ := List.map_eq_singleton_iff.mp line
  refine ⟨.value, rfl, nofun, ?_⟩
  rw [walk_cons_of_eq_some (after_literal denotes)]
  rfl

theorem passes_negated {token : Token} {value : n.Carrier} (denotes : n.Denotes true token value) :
    Passes n [.arithmetic .sub, token] := by
  intro row opened line
  obtain ⟨sign, back, rfl, minus, backRow⟩ := List.map_eq_cons_iff.mp line
  obtain ⟨t, rfl, rfl⟩ := List.map_eq_singleton_iff.mp backRow
  have signed : after n ⟨.operand, opened⟩ sign = some ⟨.sign sign.offset, opened⟩ := by
    simp only [after, minus]
  have reading : n.literal? true sign.offset t.token = some (.ok value) :=
    Numeric.literal?_eq_ok_iff.mpr denotes
  have found : after n ⟨.sign sign.offset, opened⟩ t = some ⟨.value, opened⟩ :=
    literal_eq_some (s := ⟨.sign sign.offset, opened⟩) reading
  refine ⟨.value, rfl, nofun, ?_⟩
  rw [walk_cons_of_eq_some signed, walk_cons_of_eq_some found]
  rfl

theorem Passes.parenthesized (passes : Passes n ts) :
    Passes n (.openParen :: ts ++ [.closeParen]) := by
  intro row opened line
  obtain ⟨first, inside, last, rfl, isOpen, insideRow, closed⟩ :=
    exists_of_map_eq_parenthesized line
  obtain ⟨place, ends, -, walked⟩ := passes inside (opened + 1) insideRow
  have opens : after n ⟨.operand, opened⟩ first = some ⟨.operand, opened + 1⟩ := by
    simp only [after, isOpen]
  have plain : place = .name → last.token ≠ .dot := by simp [closed]
  have closes : after n ⟨place, opened + 1⟩ last = some ⟨.value, opened⟩ := by
    rw [after_of_ends ends plain, closed]
    rfl
  refine ⟨.value, rfl, nofun, ?_⟩
  rw [List.cons_append, walk_cons_of_eq_some opens, walk_append_of_eq_some walked,
    walk_cons_of_eq_some closes]
  rfl

theorem Passes.separated (first : Passes n ls) (second : Passes n rs) (present : rs ≠ [])
    (op : Arithmetic) : Passes n (ls ++ .arithmetic op :: rs) := by
  intro row opened line
  obtain ⟨left, separator, right, rfl, leftRow, isOp, rightRow⟩ :=
    exists_of_map_eq_append_cons line
  obtain ⟨place, ends, -, walked⟩ := first left opened leftRow
  obtain ⟨place', ends', last, walked'⟩ := second right opened rightRow
  have plain : place = .name → separator.token ≠ .dot := by simp [isOp]
  have goes : after n ⟨place, opened⟩ separator = some ⟨.operand, opened⟩ := by
    rw [after_of_ends ends plain, isOp]
    rfl
  refine ⟨place', ends', ?_, ?_⟩
  · rwa [getLast?_append_cons _ present]
  · rw [walk_append_of_eq_some walked, walk_cons_of_eq_some goes, walked']

end Passes

def start : Spot := ⟨.operand, 0⟩

def isFinished (s : Spot) : Bool := s.place.ends && s.opened == 0

section Literals

variable {opened offset : Nat}

theorem place_of_literal (found : s.literal n t = some r) : r.place = .value := by
  unfold literal at found
  split at found <;> cases found
  rfl

theorem place_of_resume {opened : Nat} {token : Token} (found : resume opened token = some r) :
    r.place = .operand ∨ r.place = .value := by
  unfold resume at found
  split at found
  · cases found
    exact .inl rfl
  · split at found <;> cases found
    exact .inr rfl
  · cases found

theorem after_eq_sign (next : s.after n t = some r) (sign : r.place = .sign offset) :
    s.place = .operand ∧ t.token = .arithmetic .sub ∧ t.offset = offset := by
  unfold after at next
  split at next
  · rename_i place
    refine ⟨place, ?_⟩
    split at next
    · cases next
      cases sign
    · cases next
      cases sign
    · cases next
      cases sign
      exact ⟨‹_›, rfl⟩
    · rw [place_of_literal next] at sign
      cases sign
  · rw [place_of_literal next] at sign
    cases sign
  · split at next <;> cases next
    cases sign
  · split at next
    · cases next
      cases sign
    · obtain place | place := place_of_resume next <;> rw [place] at sign <;> cases sign
  · obtain place | place := place_of_resume next <;> rw [place] at sign <;> cases sign

theorem after_openParen (paren : t.token = .openParen) (next : s.after n t = some r) :
    s.place = .operand := by
  have other : ¬ n.IsLiteral t.token := by
    rw [paren]
    cases n with
    | double => exact nofun
    | whole width => cases width <;> exact nofun
  obtain ⟨place, opened⟩ := s
  cases place with
  | operand => rfl
  | sign offset => simp [after, literal, Place.literal?_eq_none other] at next
  | segment | name | value => simp [after, paren, resume] at next

theorem after_isLiteral (isLiteral : n.IsLiteral t.token) (next : s.after n t = some r) :
    s.place.awaitsLiteral := by
  obtain ⟨place, opened⟩ := s
  cases place with
  | operand | sign offset => rfl
  | segment | name | value =>
    cases n with
    | double =>
      obtain ⟨x, token⟩ := isLiteral
      simp [after, token, resume] at next
    | whole width =>
      obtain ⟨digits, token⟩ := isLiteral
      cases width <;> simp [after, token, Token.whole, resume] at next

theorem error_operand (isLiteral : n.IsLiteral t.token)
    (refused : after n ⟨.operand, opened⟩ t = none) :
    Place.error n .operand t = .literalTooLarge t.token.text t.offset := by
  obtain ⟨value, reading⟩ | reading := n.literal?_of_isLiteral isLiteral false t.offset
  · rw [after_literal (Numeric.literal?_eq_ok_iff.mp reading)] at refused
    cases refused
  · rw [Place.error, Place.literal?, reading, Numeric.literalTooLarge]
    simp

theorem error_sign (isLiteral : n.IsLiteral t.token)
    (refused : after n ⟨.sign offset, opened⟩ t = none) :
    Place.error n (.sign offset) t = .literalTooLarge ("-" ++ t.token.text) offset := by
  obtain ⟨value, reading⟩ | reading := n.literal?_of_isLiteral isLiteral true offset
  · have next : after n ⟨.sign offset, opened⟩ t = some ⟨.value, opened⟩ :=
      literal_eq_some (s := ⟨.sign offset, opened⟩) reading
    rw [next] at refused
    cases refused
  · rw [Place.error, Place.literal?, reading, Numeric.literalTooLarge]
    rfl

theorem error_other {place : Place} (other : ¬ (n.IsLiteral t.token ∧ place.awaitsLiteral)) :
    place.error n t = .unexpectedToken t.token.text (place.expected n) t.offset := by
  have none : place.literal? n t = none := by
    by_cases isLiteral : n.IsLiteral t.token
    · cases place with
      | operand | sign => exact absurd ⟨isLiteral, rfl⟩ other
      | segment | name | value => rfl
    · exact Place.literal?_eq_none isLiteral place
  rw [Place.error, none]

end Literals

section Finishing

theorem after_zero (awaits : s.place.awaitsLiteral) :
    s.after n ⟨n.zero, 0⟩ = some ⟨.value, s.opened⟩ := by
  obtain ⟨place, opened⟩ := s
  cases place with
  | operand =>
    obtain ⟨value, denotes⟩ := n.exists_denotes_zero false
    exact after_literal (t := ⟨n.zero, 0⟩) denotes
  | sign offset =>
    obtain ⟨value, denotes⟩ := n.exists_denotes_zero true
    have reading : Place.literal? n ⟨n.zero, 0⟩ (.sign offset) = some (.ok value) :=
      Numeric.literal?_eq_ok_iff.mpr denotes
    exact literal_eq_some (s := ⟨.sign offset, opened⟩) reading
  | segment | name | value => cases awaits

/-- Parentheses that are open are closed behind an operand. -/
theorem exists_walk_closing {place : Place} (ends : place.ends) (opened : Nat) :
    ∃ more r, walk n ⟨place, opened⟩ more = some r ∧ r.isFinished := by
  induction opened generalizing place with
  | zero => exact ⟨[], _, rfl, by simp [isFinished, ends]⟩
  | succ opened ih =>
    obtain ⟨more, r, walked, finished⟩ := ih (rfl : Place.value.ends)
    have closes : after n ⟨place, opened + 1⟩ ⟨.closeParen, 0⟩ = some ⟨.value, opened⟩ := by
      rw [after_of_ends ends (by simp)]
      rfl
    exact ⟨⟨.closeParen, 0⟩ :: more, r, by rw [walk_cons_of_eq_some closes, walked], finished⟩

/-- Wherever an operand is not complete, one token completes it. -/
theorem exists_after (s : Spot) (due : s.place.ends = false) :
    ∃ t place, s.after n t = some ⟨place, s.opened⟩ ∧ place.ends := by
  obtain ⟨place, opened⟩ := s
  cases place with
  | name | value => cases due
  | operand | sign => exact ⟨⟨n.zero, 0⟩, .value, after_zero rfl, rfl⟩
  | segment => exact ⟨⟨.identifier "x", 0⟩, .name, rfl, rfl⟩

theorem exists_walk_finishing (s : Spot) : ∃ more r, walk n s more = some r ∧ r.isFinished := by
  by_cases ends : s.place.ends
  · exact exists_walk_closing ends s.opened
  · obtain ⟨t, place, next, ends'⟩ := exists_after (n := n) s (Bool.eq_false_iff.mpr ends)
    obtain ⟨more, r, walked, finished⟩ := exists_walk_closing (n := n) ends' s.opened
    exact ⟨t :: more, r, by rw [walk_cons_of_eq_some next, walked], finished⟩

end Finishing

end Spot

/-- Every row of the grammar can be walked over. -/
theorem ReadsNumber.passes {n : Numeric} {level : Level} {ts : List Token} {e : Expr (.number n)}
    (reads : ReadsNumber n level ts e) : Spot.Passes n ts := by
  induction reads with
  | parenthesized _ ih => exact ih.parenthesized
  | name reads => exact Spot.passes_name reads
  | literal denotes => exact Spot.passes_literal denotes
  | negated denotes => exact Spot.passes_negated denotes
  | factor _ ih | product _ ih => exact ih
  | scaled _ _ reads ih ih' | shifted _ _ reads ih ih' => exact ih.separated ih' reads.ne_nil _

end Formula
