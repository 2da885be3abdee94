import Formula.Proofs.Source.Points
import Formula.Proofs.Source.Respaced
import Formula.Proofs.Token.Tight

/-! A source with white space around it, and the source without: the same tokens, at places that
count from another start. -/

namespace Formula

open Text Lexeme

def Located.behind (lead : Nat) (t : Located) : Located := ⟨t.token, lead + t.offset⟩

section Cuts

variable {offset : Nat} {blanks text : List Char} {located : List Located}

theorem Cut.behind_blanks (blank : ∀ c ∈ blanks, isWhiteSpace c)
    (cut : Cut offset (blanks ++ text) located) :
    Cut (offset + String.utf8Len blanks) text located := by
  induction blanks generalizing offset with
  | nil => exact cut
  | cons c blanks ih =>
    obtain ⟨first, others⟩ := List.forall_mem_cons.mp blank
    generalize whole : c :: blanks ++ text = chars at cut
    cases cut with
    | nil => cases whole
    | blank _ cut =>
      obtain ⟨rfl, rfl⟩ := List.cons.inj whole
      rw [String.utf8Len_cons, Nat.add_comm (String.utf8Len blanks), ← Nat.add_assoc]
      exact ih others cut
    | @token _ d tail _ piece t found cut =>
      obtain ⟨rfl, -⟩ := List.cons.inj whole
      have denotes := (front_eq_token_iff.mp found).2
      have solid := denotes.isTight.1 c (by rw [String.toList_ofList]; rfl)
      rw [first] at solid
      cases solid

theorem Cut.exists_behind {lead : Nat} (cut : Cut (lead + offset) text located) :
    ∃ located', Cut offset text located' ∧ located = located'.map (Located.behind lead) := by
  generalize start : lead + offset = place at cut
  induction cut generalizing offset with
  | nil => exact ⟨[], .nil, rfl⟩
  | @blank place c tail located blank cut ih =>
    obtain ⟨located', cut', rfl⟩ := @ih (offset + c.utf8Size) (by omega)
    exact ⟨located', .blank blank cut', rfl⟩
  | @token place c tail located piece t found cut ih =>
    obtain ⟨located', cut', rfl⟩ := @ih (offset + String.utf8Len (c :: piece)) (by omega)
    exact ⟨⟨t, offset⟩ :: located', .token piece found cut', by rw [← start]; rfl⟩

theorem Munched.exists_core (munched : Munched offset text located) :
    ∃ core rest, text = core ++ rest ∧ (∀ c ∈ rest, isBlank c) ∧ Munched offset core located ∧
      ∀ c, core.getLast? = some c → isWhiteSpace c = false := by
  induction munched with
  | nil blank => exact ⟨[], _, rfl, blank, .nil nofun, nofun⟩
  | @token offset blanks piece rest t located blank longest denotes munched ih =>
    obtain ⟨core, rest, rfl, blank', munched', tight⟩ := ih
    refine ⟨blanks ++ (piece ++ core), rest, by simp, blank',
      .token blank longest.of_append denotes munched', fun c last => ?_⟩
    rw [List.getLast?_append, List.getLast?_append] at last
    cases core with
    | nil =>
      obtain ⟨d, w, rfl⟩ := longest.isMatched.exists_cons
      apply denotes.isTight.2 c
      rw [String.toList_ofList]
      simpa using last
    | cons d core =>
      apply tight c
      simpa using last

end Cuts

theorem isWhiteSpace_of_isBlank {c : Char} (blank : isBlank c) : isWhiteSpace c := by
  simp only [isBlank, Bool.or_eq_true, beq_iff_eq] at blank
  obtain (((rfl | rfl) | rfl) | rfl) | rfl := blank <;> decide

section Framed

variable {source before core after : String} {located : List Located}

theorem Munched.of_tight {offset : Nat} {core after : String}
    (munched : Munched offset (core.toList ++ after.toList) located)
    (tight : IsTight core) (blank : ∀ c ∈ after.toList, isWhiteSpace c) :
    Munched offset core.toList located := by
  obtain ⟨core', rest, split, blank', munched', tight'⟩ := munched.exists_core
  have same : core.toList = core' := by
    rw [← rdropWhile_append_eq blank tight.2, split]
    exact rdropWhile_append_eq (fun c present => isWhiteSpace_of_isBlank (blank' c present)) tight'
  rwa [same]

/-- A source that becomes tokens has the tokens of its core, behind what is before it. -/
theorem Source.exists_tokens_of_framed (framed : Framed source before core after)
    (read : tokens source = .ok located) :
    ∃ located', tokens core = .ok located' ∧
      located = located'.map (Located.behind before.utf8ByteSize) := by
  obtain ⟨rfl, blank, tight, blank'⟩ := framed
  have cut := tokensFrom_eq_ok_iff.mp read
  rw [String.toList_append, String.toList_append, List.append_assoc] at cut
  have inner := (munched_iff_cut.mpr (cut.behind_blanks blank)).of_tight tight blank'
  have lead : 0 + String.utf8Len before.toList = before.utf8ByteSize + 0 := by
    rw [← String.utf8ByteSize_ofList, String.ofList_toList, Nat.add_comm]
  rw [lead] at inner
  obtain ⟨located', cut', same⟩ := (munched_iff_cut.mp inner).exists_behind
  exact ⟨located', tokensFrom_eq_ok_iff.mpr cut', same⟩

/-- A place in a text of size `stop`, and the place in the source that has `lead` bytes before the
text; the ends go together. -/
def Leads (lead stop stop' o o' : Nat) : Prop :=
  (o < stop ∧ o' = lead + o) ∨ (o = stop ∧ o' = stop')

theorem keepsMax_leads {lead stop stop' : Nat} (long : lead + stop ≤ stop') :
    Rule.KeepsMax (Leads lead stop stop') := by
  unfold Leads
  intro o o' q q' place place'
  omega

theorem Cursor.Ascends.lt_stop {c : Cursor} (ascends : c.Ascends) {t : Located}
    (present : t ∈ c.tokens) : t.offset < c.stop :=
  (List.pairwise_append.mp ascends).2.2 _ (List.mem_map_of_mem present) _
    (List.mem_singleton_self _)

theorem Source.moved_of_framed {located' : List Located} (read : tokens core = .ok located')
    (stop : Nat) :
    (Cursor.mk located' core.utf8ByteSize).Moved (Leads before.utf8ByteSize core.utf8ByteSize stop)
      ⟨located'.map (Located.behind before.utf8ByteSize), stop⟩ := by
  refine ⟨?_, .inr ⟨rfl, rfl⟩⟩
  rw [List.forall₂_map_right_iff, List.forall₂_same]
  intro t present
  exact ⟨rfl, .inl ⟨Cursor.Ascends.lt_stop (ascends read) present, rfl⟩⟩

theorem Expr.ofSource_of_framed (framed : Framed source before core after)
    (read : Source.tokens source = .ok located) (goal : Goal) (limit : Nat) :
    (∃ e, ofSource goal limit core = .ok e ∧ ofSource goal limit source = .ok e) ∨
      ∃ error error', ofSource goal limit core = .error error ∧
        ofSource goal limit source = .error error' ∧ error.SameCause error' ∧
        ((∃ t ∈ located, error'.offset = t.offset ∧
            before.utf8ByteSize + error.offset = error'.offset) ∨
          error.offset = core.utf8ByteSize ∧ error'.offset = source.utf8ByteSize) := by
  obtain ⟨located', read', same⟩ := Source.exists_tokens_of_framed framed read
  have long : before.utf8ByteSize + core.utf8ByteSize ≤ source.utf8ByteSize := by
    rw [framed.split, String.utf8ByteSize_append, String.utf8ByteSize_append]
    omega
  have moved := @Source.moved_of_framed before core _ read' source.utf8ByteSize
  have agree := Source.agree_parseTokens (Rule.uniform_rule (keepsMax_leads long) goal) limit moved
  rw [← same, ← Source.parse_eq_parseTokens read', ← Source.parse_eq_parseTokens read] at agree
  obtain parsed | ⟨error, error', failed, failed', cause, place⟩ := agree
  · exact .inl parsed
  · refine .inr ⟨error, error', failed, failed', cause, ?_⟩
    rw [Source.parse_eq_parseTokens read] at failed'
    have shown := (Source.refused_of_parseTokens failed').pointsTo.offset_mem_places
    obtain ⟨t, present, at'⟩ | stop := Cursor.mem_places_iff.mp shown
    · have inside := (Source.ascends read).lt_stop present
      obtain ⟨-, lead⟩ | ⟨-, stop⟩ := place
      · exact .inl ⟨t, present, at'.symm, lead.symm⟩
      · exact absurd (at'.trans stop) (Nat.ne_of_lt inside)
    · obtain ⟨inside, lead⟩ | ends := place
      · -- A token of the core starts before the end of the core, so before that of the source.
        have early : error'.offset < source.utf8ByteSize := by omega
        exact absurd stop (Nat.ne_of_lt early)
      · exact .inr ends

end Framed

end Formula
