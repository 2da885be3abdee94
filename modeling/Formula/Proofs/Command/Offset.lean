import Formula.Proofs.Command.Report
import Formula.Proofs.Source.Trimmed

/-! The offsets that the command line reports count from the core of the source. -/

namespace Formula.Command

open Text

variable {read : String → Option String} {arguments : List String} {s : Settings} {source : String}
  {located : List Located}

/-- An error that is reported at a token stands there in the source as well, as many bytes later as
there are before the core. So it is the same offset if the source does not start with white space,
and only then. What is reported at the end of the core is so at the end of the source. -/
theorem run_offset (asks : Asks arguments s) (loads : s.Loads read source)
    (tokens : Source.tokens source = .ok located) :
    ∃ before core after, Framed source before core after ∧
      ((∃ e, Expr.ofSource s.result Source.defaultLimit core = .ok e ∧
          Expr.ofSource s.result Source.defaultLimit source = .ok e) ∨
        ∃ reported error, run read arguments = ⟨1, "", line reported.message⟩ ∧
          Expr.ofSource s.result Source.defaultLimit core = .error reported ∧
          Expr.ofSource s.result Source.defaultLimit source = .error error ∧
          reported.SameCause error ∧
          ((∃ t ∈ located, error.offset = t.offset ∧
              before.utf8ByteSize + reported.offset = error.offset ∧
              (reported.offset = error.offset ↔ before = "")) ∨
            reported.offset = core.utf8ByteSize ∧ error.offset = source.utf8ByteSize)) := by
  obtain ⟨before, after, framed⟩ := exists_framed_trim source
  refine ⟨before, trim source, after, framed, ?_⟩
  obtain parsed | ⟨reported, error, refused, refused', cause, place⟩ :=
    Expr.ofSource_of_framed framed tokens s.result Source.defaultLimit
  · exact .inl parsed
  · refine .inr ⟨reported, error, run_of_refused asks loads refused, refused, refused', cause, ?_⟩
    obtain ⟨t, present, at', lead⟩ | ends := place
    · refine .inl ⟨t, present, at', lead, ?_⟩
      rw [← String.utf8ByteSize_eq_zero_iff]
      omega
    · exact .inr ends

theorem run_offset_file :
    ∃ reported : ParseError, run (fun _ => some "1 )\n") ["-ft", "int", "sum.txt"] =
        ⟨1, "", line reported.message⟩ ∧
      Expr.ofSource (.number (.whole .int)) Source.defaultLimit "1 )\n" =
        .error (.unexpectedTrailingTokens ")" 2) ∧
      reported.SameCause (.unexpectedTrailingTokens ")" 2) ∧ reported.offset = 2 := by
  have asks : Asks ["-ft", "int", "sum.txt"]
      ⟨true, some (.number (.whole .int)), [], false, false, some "sum.txt"⟩ :=
    readAll_eq_ok_iff.mp rfl
  have tokens : Source.tokens "1 )\n" = .ok [⟨.int 1, 0⟩, ⟨.closeParen, 2⟩] := by rfl
  have refused : Expr.ofSource (.number (.whole .int)) Source.defaultLimit "1 )\n" =
      .error (.unexpectedTrailingTokens ")" 2) := by
    rw [Expr.ofSource, Source.parse_eq_parseTokens tokens]
    rfl
  obtain ⟨before, core, after, framed, split⟩ :=
    @run_offset (fun _ => some "1 )\n") _ _ _ _ asks ⟨_, rfl, rfl⟩ tokens
  obtain ⟨e, -, accepted⟩ | ⟨reported, error, report, -, refused', cause, place⟩ := split
  · cases refused.symm.trans accepted
  · cases refused.symm.trans refused'
    refine ⟨reported, report, refused, cause, ?_⟩
    have trimmed : core = "1 )" := framed.trim_eq.symm
    have start : before = "" := by
      apply String.toList_inj.mp
      rw [framed.toList_before (by rw [trimmed]; decide)]
      rfl
    obtain ⟨t, -, -, -, same⟩ | ⟨-, ends⟩ := place
    · exact same.mpr start
    · cases ends

/-- White space before the core is left out of what is reported. -/
theorem run_offset_behind_blanks :
    Asks ["-t", "int", "  1 )"]
        ⟨false, some (.number (.whole .int)), [], false, false, some "  1 )"⟩ ∧
      Source.tokens "  1 )" = .ok [⟨.int 1, 2⟩, ⟨.closeParen, 4⟩] ∧
      Expr.ofSource (.number (.whole .int)) Source.defaultLimit "  1 )" =
        .error (.unexpectedTrailingTokens ")" 4) ∧
      run (fun _ => none) ["-t", "int", "  1 )"] =
        ⟨1, "", line (ParseError.unexpectedTrailingTokens ")" 2).message⟩ := by
  have tokens : Source.tokens "  1 )" = .ok [⟨.int 1, 2⟩, ⟨.closeParen, 4⟩] := by rfl
  have refused : Expr.ofSource (.number (.whole .int)) Source.defaultLimit "  1 )" =
      .error (.unexpectedTrailingTokens ")" 4) := by
    rw [Expr.ofSource, Source.parse_eq_parseTokens tokens]
    rfl
  refine ⟨readAll_eq_ok_iff.mp rfl, tokens, refused, ?_⟩
  rfl

end Formula.Command
