import Formula.Proofs.Token.Lexeme

/-! Where a text breaks: no token but a quoted one goes on with a blank or with `)`. -/

namespace Formula

section Prefix

variable {α : Type} {p : α → Bool} {front tail : List α}

theorem takeWhile_append_of_length_le
    (within : ((front ++ tail).takeWhile p).length ≤ front.length) :
    (front ++ tail).takeWhile p = front.takeWhile p := by
  rw [List.takeWhile_append] at within ⊢
  by_cases whole : (front.takeWhile p).length = front.length
  · have all := (List.takeWhile_sublist p).eq_of_length whole
    rw [if_pos whole, List.length_append] at within
    have none : tail.takeWhile p = [] := List.eq_nil_of_length_eq_zero (by omega)
    rw [if_pos whole, all, none, List.append_nil]
  · rw [if_neg whole]

theorem takeWhile_append_of_stop (stop : ∀ a, tail.head? = some a → p a = false) :
    (front ++ tail).takeWhile p = front.takeWhile p := by
  rw [List.takeWhile_append]
  by_cases whole : (front.takeWhile p).length = front.length
  · have all := (List.takeWhile_sublist p).eq_of_length whole
    have none : ([] ++ tail).takeWhile p = [] := takeWhile_append_eq nofun stop
    rw [List.nil_append] at none
    rw [if_pos whole, none, all, List.append_nil]
  · rw [if_neg whole]

theorem dropWhile_append_of_takeWhile_eq
    (same : (front ++ tail).takeWhile p = front.takeWhile p) :
    (front ++ tail).dropWhile p = front.dropWhile p ++ tail := by
  refine List.append_cancel_left (?_ : front.takeWhile p ++ _ = front.takeWhile p ++ _)
  calc
    front.takeWhile p ++ (front ++ tail).dropWhile p = front ++ tail := by
      rw [← same, List.takeWhile_append_dropWhile]
    _ = front.takeWhile p ++ (front.dropWhile p ++ tail) := by
      rw [← List.append_assoc, List.takeWhile_append_dropWhile]

theorem exists_eq_append_of_length_le {row rest : List α} (same : front ++ tail = row ++ rest)
    (within : row.length ≤ front.length) : ∃ more, front = row ++ more ∧ rest = more ++ tail := by
  obtain ⟨more, longer, left⟩ | ⟨more, longer, left⟩ := List.append_eq_append_iff.mp same
  · rw [longer, List.length_append] at within
    have none : more = [] := List.eq_nil_of_length_eq_zero (by omega)
    subst none
    exact ⟨[], by simpa using longer.symm, by simpa using left.symm⟩
  · exact ⟨more, longer, left⟩

end Prefix

namespace Lexeme

def breaks : List Char := [' ', '\t', '\r', '\n', '\x0c', ')']

theorem mem_breaks_of_isBlank {c : Char} (blank : isBlank c) : c ∈ breaks := by
  simp only [isBlank, Bool.or_eq_true, beq_iff_eq] at blank
  simp only [breaks, List.mem_cons]
  grind

theorem not_of_mem_breaks {p : Char → Bool} (none : breaks.any p = false) {c : Char}
    (present : c ∈ breaks) : p c = false :=
  Bool.eq_false_iff.mpr (List.any_eq_false.mp none c present)

end Lexeme

def Breaks (text : List Char) : Prop := ∀ c, text.head? = some c → c ∈ Lexeme.breaks

theorem breaks_nil : Breaks [] := nofun

theorem breaks_cons {c : Char} (present : c ∈ Lexeme.breaks) (tail : List Char) :
    Breaks (c :: tail) := by
  intro d next
  cases next
  exact present

theorem Breaks.stop {tail : List Char} (breaks : Breaks tail) {p : Char → Bool}
    (none : Lexeme.breaks.any p = false) : ∀ c, tail.head? = some c → p c = false :=
  fun c next => Lexeme.not_of_mem_breaks none (breaks c next)

namespace Timestamp

section LooksAt

variable {α : Type} {length : Nat}

/-- A reader that takes `length` characters, none of which breaks a text, and looks at no others. -/
def LooksAt (length : Nat) (reader : List Char → Option (α × List Char)) : Prop :=
  ∀ text a rest, reader text = some (a, rest) →
    ∃ written, text = written ++ rest ∧ written.length = length ∧
      (∀ c ∈ written, c ∉ Lexeme.breaks) ∧ ∀ rest', reader (written ++ rest') = some (a, rest')

theorem looksAt_some (a : α) : LooksAt 0 fun text => some (a, text) := by
  intro text a' rest found
  cases found
  exact ⟨[], rfl, rfl, nofun, fun _ => rfl⟩

theorem looksAt_bind_readNumber (width : Nat) {next : Nat × List Char → Option (α × List Char)}
    (after : ∀ n, LooksAt length fun text => next (n, text)) :
    LooksAt (width + length) fun text => (readNumber width text).bind next := by
  intro text a rest found
  obtain ⟨⟨n, left⟩, number, after'⟩ := Option.bind_eq_some_iff.mp found
  simp only [readNumber] at number
  split at number
  · rename_i digits
    cases number
    obtain ⟨written, shape, size, plain, again⟩ := after _ _ _ _ after'
    have digit := List.all_eq_true.1 digits.2
    have none : Lexeme.breaks.any Char.isDigit = false := by decide
    refine ⟨text.take width ++ written, ?_, ?_, ?_, fun rest' => ?_⟩
    · rw [List.append_assoc, ← shape, List.take_append_drop]
    · rw [List.length_append, digits.1, size]
    · rw [List.forall_mem_append]
      refine ⟨fun c present break' => ?_, plain⟩
      have not := Lexeme.not_of_mem_breaks none break'
      rw [digit c present] at not
      cases not
    · simp only [List.append_assoc, readNumber_eq_some digit digits.1, Option.bind_some]
      exact again rest'
  · cases number

theorem looksAt_bind_readMark {mark : Char} (other : mark ∉ Lexeme.breaks)
    {next : List Char → Option (α × List Char)} (after : LooksAt length next) :
    LooksAt (1 + length) fun text => (readMark mark text).bind next := by
  intro text a rest found
  obtain ⟨left, marked, after'⟩ := Option.bind_eq_some_iff.mp found
  cases text with
  | nil => cases marked
  | cons c text =>
    obtain ⟨rfl, same⟩ := Option.ite_none_right_eq_some.mp marked
    cases same
    obtain ⟨written, rfl, size, plain, again⟩ := after _ _ _ after'
    refine ⟨c :: written, rfl, ?_, List.forall_mem_cons.mpr ⟨other, plain⟩, fun rest' => ?_⟩
    · rw [List.length_cons, size, Nat.add_comm]
    · simp only [List.cons_append, readMark_cons, Option.bind_some, again]

theorem looksAt_read : LooksAt width read :=
  have looks :
      LooksAt (4 + (1 + (2 + (1 + (2 + (1 + (2 + (1 + (2 + (1 + (2 + (1 + (3 + (1 + 0))))))))))))))
        read :=
    looksAt_bind_readNumber 4 fun _ => looksAt_bind_readMark (by decide) <|
    looksAt_bind_readNumber 2 fun _ => looksAt_bind_readMark (by decide) <|
    looksAt_bind_readNumber 2 fun _ => looksAt_bind_readMark (by decide) <|
    looksAt_bind_readNumber 2 fun _ => looksAt_bind_readMark (by decide) <|
    looksAt_bind_readNumber 2 fun _ => looksAt_bind_readMark (by decide) <|
    looksAt_bind_readNumber 2 fun _ => looksAt_bind_readMark (by decide) <|
    looksAt_bind_readNumber 3 fun _ => looksAt_bind_readMark (by decide) <| looksAt_some _
  looks

end LooksAt

variable {front tail tail' rest : List Char} {t : Timestamp}

theorem read_of_append (found : read (front ++ tail) = some (t, rest))
    (within : width ≤ front.length) (tail' : List Char) :
    ∃ rest', read (front ++ tail') = some (t, rest') := by
  obtain ⟨written, shape, length, -, again⟩ := looksAt_read _ _ _ found
  obtain ⟨more, longer, -⟩ := exists_eq_append_of_length_le shape (by omega)
  exact ⟨more ++ tail', by rw [longer, List.append_assoc, again]⟩

theorem read_eq_none_of_append (none : read (front ++ tail) = none) (breaks : Breaks tail') :
    read (front ++ tail') = .none := by
  apply Option.eq_none_iff_forall_ne_some.mpr
  intro (t, rest) found
  obtain ⟨written, shape, length, plain, again⟩ := looksAt_read _ _ _ found
  obtain ⟨more, longer, left⟩ | ⟨more, longer, left⟩ := List.append_eq_append_iff.mp shape
  · cases more with
    | nil =>
      rw [List.append_nil] at longer
      rw [← longer, again] at none
      cases none
    | cons c more =>
      have present : c ∈ written := by simp [longer]
      exact plain c present (breaks c (by rw [left]; rfl))
  · rw [longer, List.append_assoc, again] at none
    cases none

end Timestamp

end Formula
