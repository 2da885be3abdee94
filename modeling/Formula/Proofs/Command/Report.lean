import Formula.Proofs.Command.Arguments
import Formula.Proofs.Text.Trim

/-! What the command line leaves behind is what reading, printing and evaluation give for the source
without the white space around it. -/

namespace Formula

open Command

/-- What the literal of a value has behind its plain text. -/
def Kind.mark : (k : Kind) → k.Carrier → String
  | .whole .long, _ => "L"
  | .double, x => if x.IsFinite ∧ '.' ∉ x.text.toList then ".0" else ""
  | _, _ => ""

theorem Decimal.pointed_eq (d : Decimal) :
    d.pointed = d.text ++ if '.' ∉ d.text.toList then ".0" else "" := by
  by_cases none : d.places = 0
  · have plain : '.' ∉ d.text.toList := by
      intro point
      rw [text, if_pos none, Nat.toString_eq_repr, Nat.toList_repr] at point
      cases Nat.isDigit_of_mem_toDigits (by decide) (by decide) point
    rw [if_pos plain, pointed, text, if_pos none, if_pos none]
  · have point : '.' ∈ d.text.toList := by
      rw [text, if_neg none]
      simp
    rw [if_neg (not_not.mpr point), pointed, if_neg none, String.append_empty]

theorem Double.literal_eq (x : Double) : x.literal = x.text ++ Kind.mark .double x := by
  cases x with
  | nan => rfl
  | signed negative m =>
    have sign : '.' ∉ (signText negative).toList := by
      cases negative <;> simp [signText]
    by_cases finite : m.val < infinite
    · have shape : (signed negative m).text = signText negative ++ m.shortest.text := by
        rw [text, textWith, if_pos finite]
      have same : '.' ∈ (signed negative m).text.toList ↔ '.' ∈ m.shortest.text.toList := by
        simp [shape, sign]
      have isFinite : (signed negative m).IsFinite := finite
      rw [literal, textWith, if_pos finite, Decimal.pointed_eq, Kind.mark, shape,
        String.append_assoc]
      simp only [isFinite, true_and, ← shape, same]
    · have isInfinite : ¬ (signed negative m).IsFinite := finite
      rw [Kind.mark, if_neg (fun both => isInfinite both.1), String.append_empty, literal, text,
        textWith, textWith, if_neg finite, if_neg finite]

theorem Goal.literal_eq (goal : Goal) (v : goal.kind.Carrier) :
    goal.kind.literal v = goal.kind.text v ++ goal.kind.mark v := by
  match goal, v with
  | .boolean, b => exact (String.append_empty).symm
  | .number (.whole .int), n => exact (String.append_empty).symm
  | .number (.whole .long), n => rfl
  | .number .double, x => exact x.literal_eq

namespace Command

namespace Settings

def result (s : Settings) : Goal := s.goal.getD .boolean

def context (s : Settings) : Context := (Bindings.ofList s.bindings).context

def tree (s : Settings) {k : Kind} (e : Expr k) : String := if s.printTree then line e.text else ""

def Loads (s : Settings) (read : String → Option String) (source : String) : Prop :=
  ∃ contents, s.contents = some contents ∧
    (if s.fromFile then read contents else some contents) = some source

end Settings

variable {read : String → Option String} {arguments : List String} {s : Settings} {source : String}

theorem run_eq_answer (asks : Asks arguments s) (loads : s.Loads read source) :
    run read arguments = answer s.result (.ofList s.bindings) s.printTree source := by
  obtain ⟨contents, given, loaded⟩ := loads
  simp only [run, readAll_eq_ok_iff.mpr asks, given, loaded]
  rfl

section Cases

variable {e : Expr s.result.kind}

theorem run_of_refused (asks : Asks arguments s) (loads : s.Loads read source) {e : ParseError}
    (refused : Expr.ofSource s.result Source.defaultLimit (Text.trim source) = .error e) :
    run read arguments = ⟨1, "", line e.message⟩ := by
  rw [run_eq_answer asks loads, answer, refused]

theorem run_of_fault (asks : Asks arguments s) (loads : s.Loads read source)
    (parsed : Expr.ofSource s.result Source.defaultLimit (Text.trim source) = .ok e) {f : EvalError}
    (failed : e.eval s.context = .error f) :
    run read arguments = ⟨1, s.tree e, line f.message⟩ := by
  rw [run_eq_answer asks loads, answer, parsed]
  simp only [show e.eval (Bindings.ofList s.bindings).context = .error f from failed]
  rfl

theorem run_of_value (asks : Asks arguments s) (loads : s.Loads read source)
    (parsed : Expr.ofSource s.result Source.defaultLimit (Text.trim source) = .ok e)
    {v : s.result.kind.Carrier} (found : e.eval s.context = .ok v) :
    run read arguments = ⟨0, s.tree e ++ line (s.result.kind.text v), ""⟩ := by
  rw [run_eq_answer asks loads, answer, parsed]
  simp only [show e.eval (Bindings.ofList s.bindings).context = .ok v from found]
  rfl

end Cases

/-- The report on a source is that on its core: the tree on demand and the value, or the tree and
what went wrong in the evaluation, or nothing but what is wrong with the core. -/
theorem run_computes (asks : Asks arguments s) (loads : s.Loads read source) :
    ∃ before core after, Text.Framed source before core after ∧
      ((run read arguments).exitCode = 0 ↔
        ∃ e v, Expr.ofSource s.result Source.defaultLimit core = .ok e ∧ e.eval s.context = .ok v) ∧
      (∀ e v, Expr.ofSource s.result Source.defaultLimit core = .ok e → e.eval s.context = .ok v →
        run read arguments = ⟨0, s.tree e ++ line (s.result.kind.text v), ""⟩ ∧
          s.result.kind.literal v = s.result.kind.text v ++ s.result.kind.mark v) ∧
      (∀ e f, Expr.ofSource s.result Source.defaultLimit core = .ok e →
        e.eval s.context = .error f → run read arguments = ⟨1, s.tree e, line f.message⟩) ∧
      ∀ e, Expr.ofSource s.result Source.defaultLimit core = .error e →
        run read arguments = ⟨1, "", line e.message⟩ := by
  obtain ⟨before, after, framed⟩ := Text.exists_framed_trim source
  refine ⟨before, Text.trim source, after, framed, ⟨fun success => ?_, ?_⟩, fun e v parsed found =>
    ⟨run_of_value asks loads parsed found, s.result.literal_eq v⟩,
    fun e f parsed failed => run_of_fault asks loads parsed failed,
    fun e => run_of_refused asks loads⟩
  · cases parsed : Expr.ofSource s.result Source.defaultLimit (Text.trim source) with
    | error e =>
      rw [run_of_refused asks loads parsed] at success
      cases success
    | ok e =>
      cases outcome : e.eval s.context with
      | error f =>
        rw [run_of_fault asks loads parsed outcome] at success
        cases success
      | ok v => exact ⟨e, v, rfl, outcome⟩
  · rintro ⟨e, v, parsed, found⟩
    rw [run_of_value asks loads parsed found]

theorem run_computes_overwritten :
    run (fun _ => none)
        ["--print-tree", "-tlong", "--var=n = -1", "--var", "n=41L", "--", "\u2003 n + 1L\n"] =
      ⟨0, "(n + 1L)\n42\n", ""⟩ := by
  have small : Width.int.Holds (-1) := by decide
  have large : Width.long.Holds 41 := by decide
  have sum : Width.long.Holds 42 := by decide
  have one : Width.long.Holds 1 := by decide
  have asks : Asks
      ["--print-tree", "-tlong", "--var=n = -1", "--var", "n=41L", "--", "\u2003 n + 1L\n"]
      ⟨false, some (.number (.whole .long)),
        [("n", ⟨.int, ⟨-1, small⟩⟩), ("n", ⟨.long, ⟨41, large⟩⟩)], true, false,
        some "\u2003 n + 1L\n"⟩ :=
    readAll_eq_ok_iff.mp rfl
  obtain ⟨before, core, after, framed, -, computes, -⟩ :=
    @run_computes (fun _ => none) _ _ "\u2003 n + 1L\n" asks ⟨_, rfl, rfl⟩
  have trimmed : core = "n + 1L" := framed.trim_eq.symm
  have tokens : Source.tokens "n + 1L" =
      .ok [⟨.identifier "n", 0⟩, ⟨.arithmetic .add, 2⟩, ⟨.long 1, 4⟩] := by rfl
  have parsed : Expr.ofSource (.number (.whole .long)) Source.defaultLimit "n + 1L" =
      .ok (.arith (n := .whole .long) .add (.var "n") (.const ⟨1, one⟩)) := by
    rw [Expr.ofSource, Source.parse_eq_parseTokens tokens]
    rfl
  rw [trimmed] at computes
  exact (computes _ ⟨42, sum⟩ parsed rfl).1

end Command

end Formula
