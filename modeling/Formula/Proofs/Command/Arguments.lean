import Formula.Proofs.Command.Request
import Mathlib.Data.List.Forall2

/-! The rows of arguments that are accepted are those that ask for settings. -/

namespace Formula.Command

section Words

open Settings

variable {done requests : List Request} {option : String} {c : Char} {letters text : List Char}
  {f : Flag} {x : Setting} {pending : Option Setting} {s : Settings}

theorem bind_eq_ok_iff {α β ε : Type} {first : Except ε α} {second : α → Except ε β} {b : β} :
    (first >>= second) = .ok b ↔ ∃ a, first = .ok a ∧ second a = .ok b := by
  cases first with
  | error e => exact ⟨nofun, nofun⟩
  | ok a => exact ⟨fun found => ⟨a, rfl, found⟩, fun ⟨_, same, found⟩ => by cases same; exact found⟩

theorem letters_cons_iff :
    Letters (c :: letters) requests pending ↔
      (c = 'f' ∧ ∃ rest, requests = .flag .file :: rest ∧ Letters letters rest pending) ∨
        ∃ x : Setting, c = x.letter ∧
          ((letters = [] ∧ requests = [] ∧ pending = some x) ∨
            (letters ≠ [] ∧ pending = none ∧
              ∃ r, requests = [r] ∧ x.Means (.ofList (attached letters)) r)) := by
  constructor
  · intro spelled
    cases spelled with
    | file spelled => exact .inl ⟨rfl, _, rfl, spelled⟩
    | apart x => exact .inr ⟨x, rfl, .inl ⟨rfl, rfl, rfl⟩⟩
    | attached present means => exact .inr ⟨_, rfl, .inr ⟨present, rfl, _, rfl, means⟩⟩
  · rintro (⟨rfl, rest, rfl, spelled⟩ | ⟨x, rfl, ⟨rfl, rfl, rfl⟩ | ⟨present, rfl, r, rfl, means⟩⟩)
    · exact .file spelled
    · exact .apart x
    · exact .attached present means

theorem complete_eq_ok_iff {first : Except UsageError Settings} :
    (do return (← first, none) : Except UsageError (Settings × Option Setting)) = .ok (s, pending) ↔
      pending = none ∧ first = .ok s := by
  cases first with
  | error e => exact ⟨nofun, fun ⟨_, found⟩ => nomatch found⟩
  | ok s' =>
    constructor
    · rintro ⟨⟩
      exact ⟨rfl, rfl⟩
    · rintro ⟨rfl, ⟨⟩⟩
      rfl

theorem valueOf_eq_ok_iff {s' : Settings} :
    readShort.valueOf s option x letters = .ok (s', pending) ↔
      (letters = [] ∧ s' = s ∧ pending = some x) ∨
        (letters ≠ [] ∧ pending = none ∧ s.set option (.ofList (attached letters)) x = .ok s') := by
  unfold readShort.valueOf
  split
  · simp [eq_comm]
  · rw [complete_eq_ok_iff]
    simp [attached]
  · next present _ =>
    rw [complete_eq_ok_iff]
    simp [attached, show letters ≠ [] from present]

theorem valueOf_gathered_iff (compatible : Compatible done) :
    readShort.valueOf (gathered done) option x letters = .ok (s, pending) ↔
      ∃ requests, Letters (x.letter :: letters) requests pending ∧ Compatible (done ++ requests) ∧
        s = gathered (done ++ requests) := by
  have only {y : Setting} : x.letter = y.letter ↔ x = y := by
    cases x <;> cases y <;> simp [Setting.letter]
  have noFlag : x.letter ≠ 'f' := by
    cases x <;> decide
  simp only [valueOf_eq_ok_iff, set_gathered_iff compatible, letters_cons_iff, only, noFlag,
    false_and, false_or, exists_eq_left']
  constructor
  · rintro (⟨rfl, rfl, rfl⟩ | ⟨present, rfl, r, means, fits, rfl⟩)
    · exact ⟨[], .inl ⟨rfl, rfl, rfl⟩, by rwa [List.append_nil], by rw [List.append_nil]⟩
    · exact ⟨[r], .inr ⟨present, rfl, r, rfl, means⟩, fits, rfl⟩
  · rintro ⟨requests, ⟨rfl, rfl, rfl⟩ | ⟨present, rfl, r, rfl, means⟩, fits, rfl⟩
    · exact .inl ⟨rfl, by rw [List.append_nil], rfl⟩
    · exact .inr ⟨present, rfl, r, means, fits, rfl⟩

theorem readShort_gathered_iff (compatible : Compatible done) :
    (gathered done).readShort letters = .ok (s, pending) ↔
      ∃ requests, Letters letters requests pending ∧ Compatible (done ++ requests) ∧
        s = gathered (done ++ requests) := by
  induction letters generalizing done with
  | nil =>
    constructor
    · rintro ⟨⟩
      exact ⟨[], .nil, by rwa [List.append_nil], by rw [List.append_nil]⟩
    · rintro ⟨requests, spelled, -, rfl⟩
      cases spelled
      rw [List.append_nil]
      rfl
  | cons c letters ih =>
    unfold readShort
    split
    · contradiction
    · next same =>
      cases same
      have noValue (x : Setting) : 'f' ≠ x.letter := by cases x <;> decide
      simp only [bind_eq_ok_iff, switchOn_gathered_iff compatible, letters_cons_iff, noValue,
        false_and, exists_false, or_false, true_and]
      constructor
      · rintro ⟨_, ⟨fits, rfl⟩, found⟩
        obtain ⟨requests, spelled, fits', rfl⟩ := (ih fits).mp found
        rw [List.append_assoc] at fits' ⊢
        exact ⟨_, ⟨requests, rfl, spelled⟩, fits', rfl⟩
      · rintro ⟨_, ⟨requests, rfl, spelled⟩, fits, rfl⟩
        rw [List.append_cons] at fits
        refine ⟨_, ⟨fits.of_append, rfl⟩, (ih fits.of_append).mpr ⟨requests, spelled, fits, ?_⟩⟩
        rw [List.append_cons]
    · next same =>
      cases same
      exact valueOf_gathered_iff compatible
    · next same =>
      cases same
      exact valueOf_gathered_iff compatible
    · next noFlag noGoal noBinding same =>
      cases same
      have noValue (x : Setting) : c ≠ x.letter := by
        cases x with
        | goal => exact noGoal
        | binding => exact noBinding
      simp [letters_cons_iff, show c ≠ 'f' from noFlag, noValue]

theorem of_splitAtEquals {text before : List Char} {value : Option (List Char)}
    (split : splitAtEquals text = (before, value)) :
    '=' ∉ before ∧ text = before ++ (value.elim [] ('=' :: ·)) := by
  induction text generalizing before with
  | nil =>
    cases split
    exact ⟨by simp, rfl⟩
  | cons c text ih =>
    unfold splitAtEquals at split
    split at split
    · next same =>
      cases split
      exact ⟨by simp, by rw [same]; rfl⟩
    · next other =>
      cases split
      obtain ⟨plain, shape⟩ := ih rfl
      refine ⟨?_, congrArg (c :: ·) shape⟩
      rw [List.mem_cons, not_or]
      exact ⟨Ne.symm other, plain⟩

theorem splitAtEquals_eq_self {text : List Char} (plain : '=' ∉ text) :
    splitAtEquals text = (text, none) := by
  induction text with
  | nil => rfl
  | cons c text ih =>
    rw [List.mem_cons, not_or] at plain
    rw [splitAtEquals, if_neg (Ne.symm plain.1), ih plain.2]

theorem splitAtEquals_append {before : List Char} (plain : '=' ∉ before) (after : List Char) :
    splitAtEquals (before ++ '=' :: after) = (before, some after) := by
  induction before with
  | nil => rfl
  | cons c before ih =>
    rw [List.mem_cons, not_or] at plain
    rw [List.cons_append, splitAtEquals, if_neg (Ne.symm plain.1), ih plain.2]

theorem splitAtEquals_append_elim {before : List Char} (plain : '=' ∉ before)
    (value : Option (List Char)) :
    splitAtEquals (before ++ value.elim [] ('=' :: ·)) = (before, value) := by
  cases value with
  | none =>
    rw [Option.elim, List.append_nil]
    exact splitAtEquals_eq_self plain
  | some value => exact splitAtEquals_append plain value

theorem readLong_flag (s : Settings) (f : Flag) (value : Option (List Char)) :
    s.readLong (f.name.toList ++ value.elim [] ('=' :: ·)) =
      readLong.flag s ("--" ++ f.name) value f := by
  have plain : '=' ∉ f.name.toList := by cases f <;> simp [Flag.name]
  rw [readLong, splitAtEquals_append_elim plain]
  simp only [String.ofList_toList]
  cases f <;> rfl

theorem readLong_setting (s : Settings) (x : Setting) (value : Option (List Char)) :
    s.readLong (x.name.toList ++ value.elim [] ('=' :: ·)) =
      readLong.setting s ("--" ++ x.name) value x := by
  have plain : '=' ∉ x.name.toList := by cases x <;> simp [Setting.name]
  rw [readLong, splitAtEquals_append_elim plain]
  simp only [String.ofList_toList]
  cases x <;> rfl

theorem flag_eq_ok_iff {s' : Settings} {value : Option (List Char)} :
    readLong.flag s option value f = .ok (s', pending) ↔
      value = none ∧ pending = none ∧ s.switchOn option f = .ok s' := by
  cases value with
  | none =>
    rw [readLong.flag, complete_eq_ok_iff]
    simp
  | some value => simp [readLong.flag]

theorem setting_eq_ok_iff {s' : Settings} {value : Option (List Char)} :
    readLong.setting s option value x = .ok (s', pending) ↔
      (value = none ∧ s' = s ∧ pending = some x) ∨
        ∃ v, value = some v ∧ pending = none ∧ s.set option (.ofList v) x = .ok s' := by
  cases value with
  | none => simp [readLong.setting, eq_comm]
  | some value =>
    rw [readLong.setting, complete_eq_ok_iff]
    simp

theorem readLong_eq_ok_cases {s' : Settings} (found : s.readLong text = .ok (s', pending)) :
    (∃ (f : Flag) (value : Option (List Char)), text = f.name.toList ++ value.elim [] ('=' :: ·)) ∨
      ∃ (x : Setting) (value : Option (List Char)),
        text = x.name.toList ++ value.elim [] ('=' :: ·) := by
  cases split : splitAtEquals text with
  | mk before value =>
    obtain ⟨plain, shape⟩ := of_splitAtEquals split
    simp only [readLong, split] at found
    have same {name : String} (same : String.ofList before = name) : before = name.toList := by
      rw [← same, String.toList_ofList]
    split at found
    · next name => exact .inl ⟨.file, value, by rw [shape, same name]; rfl⟩
    · next name => exact .inl ⟨.printTree, value, by rw [shape, same name]; rfl⟩
    · next name => exact .inl ⟨.verbose, value, by rw [shape, same name]; rfl⟩
    · next name => exact .inr ⟨.goal, value, by rw [shape, same name]; rfl⟩
    · next name => exact .inr ⟨.binding, value, by rw [shape, same name]; rfl⟩
    · cases found

theorem readLong_gathered_iff (compatible : Compatible done) :
    (gathered done).readLong text = .ok (s, pending) ↔
      ∃ requests, Long text requests pending ∧ Compatible (done ++ requests) ∧
        s = gathered (done ++ requests) := by
  constructor
  · intro found
    obtain ⟨f, value, rfl⟩ | ⟨x, value, rfl⟩ := readLong_eq_ok_cases found
    · rw [readLong_flag, flag_eq_ok_iff, switchOn_gathered_iff compatible] at found
      obtain ⟨rfl, rfl, fits, rfl⟩ := found
      rw [Option.elim, List.append_nil]
      exact ⟨_, .flag f, fits, rfl⟩
    · rw [readLong_setting, setting_eq_ok_iff] at found
      obtain ⟨rfl, rfl, rfl⟩ | ⟨v, rfl, rfl, found⟩ := found
      · rw [Option.elim, List.append_nil]
        exact ⟨[], .apart x, by rwa [List.append_nil], by rw [List.append_nil]⟩
      · obtain ⟨r, means, fits, rfl⟩ := (set_gathered_iff compatible).mp found
        exact ⟨[r], .attached means, fits, rfl⟩
  · rintro ⟨requests, spelled, fits, rfl⟩
    cases spelled with
    | flag f =>
      rw [← List.append_nil f.name.toList]
      exact (readLong_flag _ f none).trans (flag_eq_ok_iff.mpr
        ⟨rfl, rfl, (switchOn_gathered_iff compatible).mpr ⟨fits, rfl⟩⟩)
    | apart x =>
      rw [← List.append_nil x.name.toList, List.append_nil done]
      exact (readLong_setting _ x none).trans (setting_eq_ok_iff.mpr (.inl ⟨rfl, rfl, rfl⟩))
    | @attached x value r means =>
      refine (readLong_setting _ x (some value)).trans (setting_eq_ok_iff.mpr (.inr ⟨value, ?_⟩))
      exact ⟨rfl, rfl, (set_gathered_iff compatible).mpr ⟨r, means, fits, rfl⟩⟩

end Words

section Rows

open Settings

variable {done requests : List Request} {argument : String} {pending : Option Setting}
  {s : Settings}

theorem isOption_iff : isOption argument ↔ ∃ c rest, argument = .ofList ('-' :: c :: rest) := by
  rw [isOption]
  split
  · next c rest shape =>
    exact iff_of_true rfl ⟨c, rest, by rw [← shape, String.ofList_toList]⟩
  · next other =>
    refine ⟨nofun, ?_⟩
    rintro ⟨c, rest, rfl⟩
    exact (other c rest String.toList_ofList).elim

theorem not_letters_dash {letters : List Char} : ¬ Letters ('-' :: letters) requests pending := by
  rw [letters_cons_iff]
  rintro (⟨same, -⟩ | ⟨x, same, -⟩)
  · cases same
  · cases x <;> cases same

theorem spells_long_iff {text : List Char} :
    Spells (.ofList ('-' :: '-' :: text)) requests pending ↔ Long text requests pending := by
  refine ⟨fun spelled => ?_, .long⟩
  generalize whole : String.ofList ('-' :: '-' :: text) = word at spelled
  cases spelled with
  | short _ letters =>
    cases String.ofList_injective whole
    exact absurd letters not_letters_dash
  | long spelled =>
    cases String.ofList_injective whole
    exact spelled

theorem spells_short_iff {c : Char} {rest : List Char} (other : c ≠ '-') :
    Spells (.ofList ('-' :: c :: rest)) requests pending ↔ Letters (c :: rest) requests pending := by
  refine ⟨fun spelled => ?_, .short (List.cons_ne_nil c rest)⟩
  generalize whole : String.ofList ('-' :: c :: rest) = word at spelled
  cases spelled with
  | short _ letters =>
    cases String.ofList_injective whole
    exact letters
  | long spelled =>
    cases String.ofList_injective whole
    exact absurd rfl other

theorem Long.ne_nil {text : List Char} (spelled : Long text requests pending) : text ≠ [] := by
  cases spelled with
  | flag f => cases f <;> simp [Flag.name]
  | apart x => cases x <;> simp [Setting.name]
  | attached => simp

theorem Spells.isOption (spelled : Spells argument requests pending) :
    isOption argument ∧ argument ≠ "--" := by
  rw [isOption_iff]
  cases spelled with
  | short present letters =>
    obtain ⟨c, rest, rfl⟩ := List.exists_cons_of_ne_nil present
    refine ⟨⟨c, rest, rfl⟩, fun same => ?_⟩
    cases String.ofList_injective same
    exact not_letters_dash letters
  | long spelled =>
    refine ⟨⟨'-', _, rfl⟩, fun same => ?_⟩
    cases String.ofList_injective same
    exact spelled.ne_nil rfl

theorem readOption_gathered_iff (compatible : Compatible done) (dashed : isOption argument) :
    (gathered done).readOption argument = .ok (s, pending) ↔
      ∃ requests, Spells argument requests pending ∧ Compatible (done ++ requests) ∧
        s = gathered (done ++ requests) := by
  obtain ⟨c, rest, rfl⟩ := isOption_iff.mp dashed
  rw [readOption, String.toList_ofList]
  split
  · next shape =>
    cases shape
    simp only [readLong_gathered_iff compatible, spells_long_iff]
  · next other =>
    have plain : c ≠ '-' := fun same => other rest (by rw [same])
    simp only [spells_short_iff plain]
    exact readShort_gathered_iff compatible

theorem foldlM_setContents_iff {texts : List String} (compatible : Compatible done) :
    texts.foldlM setContents (gathered done) = .ok s ↔
      Compatible (done ++ texts.map .contents) ∧ s = gathered (done ++ texts.map .contents) := by
  induction texts generalizing done with
  | nil => simp [compatible, pure, Except.pure, eq_comm]
  | cons text texts ih =>
    rw [List.foldlM_cons, bind_eq_ok_iff, List.map_cons, List.append_cons]
    simp only [setContents_gathered_iff compatible]
    constructor
    · rintro ⟨_, ⟨fits, rfl⟩, found⟩
      exact (ih fits).mp found
    · rintro ⟨fits, rfl⟩
      exact ⟨_, ⟨fits.of_append, rfl⟩, (ih fits.of_append).mpr ⟨fits, rfl⟩⟩

theorem exists_makes_of_readFrom {arguments : List String} {own : Option (String × Setting)}
    (compatible : Compatible done) (found : (gathered done).readFrom own arguments = .ok s) :
    ∃ requests, Makes (own.map Prod.snd) arguments requests ∧ Compatible (done ++ requests) ∧
      s = gathered (done ++ requests) := by
  -- The settings so far are always what the requests so far come to.
  induction arguments generalizing done own with
  | nil =>
    cases own with
    | none =>
      cases found
      exact ⟨[], .nil, by rwa [List.append_nil], by rw [List.append_nil]⟩
    | some own => cases found
  | cons argument rest ih =>
    obtain _ | ⟨option, x⟩ := own
    · rw [readFrom] at found
      split at found
      · next plain =>
        obtain ⟨fits, rfl⟩ := (foldlM_setContents_iff compatible).mp found
        rw [plain]
        exact ⟨_, .plain rest, fits, rfl⟩
      split at found
      · next dashed =>
        obtain ⟨⟨_, pending⟩, read, found⟩ := bind_eq_ok_iff.mp found
        obtain ⟨own, spelled, fits, rfl⟩ := (readOption_gathered_iff compatible dashed).mp read
        obtain ⟨requests, makes, fits', rfl⟩ := ih fits found
        have left : (pending.map (argument, ·)).map Prod.snd = pending := by
          cases pending <;> rfl
        rw [left] at makes
        rw [List.append_assoc] at fits' ⊢
        exact ⟨_, .option spelled makes, fits', rfl⟩
      · next plain =>
        obtain ⟨_, given, found⟩ := bind_eq_ok_iff.mp found
        obtain ⟨fits, rfl⟩ := (setContents_gathered_iff compatible).mp given
        obtain ⟨requests, makes, fits', rfl⟩ := ih fits found
        rw [List.append_assoc] at fits' ⊢
        exact ⟨_, .contents (Bool.eq_false_iff.mpr plain) makes, fits', rfl⟩
    · rw [readFrom] at found
      split at found
      · cases found
      · next plain =>
        obtain ⟨_, given, found⟩ := bind_eq_ok_iff.mp found
        obtain ⟨r, means, fits, rfl⟩ := (set_gathered_iff compatible).mp given
        obtain ⟨requests, makes, fits', rfl⟩ := ih fits found
        rw [List.append_assoc] at fits' ⊢
        exact ⟨_, .value (Bool.eq_false_iff.mpr plain) means makes, fits', rfl⟩

theorem readFrom_of_makes {arguments : List String} (makes : Makes pending arguments requests)
    {own : Option (String × Setting)} (same : own.map Prod.snd = pending)
    (compatible : Compatible (done ++ requests)) :
    (gathered done).readFrom own arguments = .ok (gathered (done ++ requests)) := by
  induction makes generalizing done own with
  | nil =>
    cases Option.map_eq_none_iff.mp same
    rw [List.append_nil]
    rfl
  | plain texts =>
    cases Option.map_eq_none_iff.mp same
    rw [readFrom, if_pos rfl]
    exact (foldlM_setContents_iff compatible.of_append).mpr ⟨compatible, rfl⟩
  | @contents text rest requests plain makes ih =>
    cases Option.map_eq_none_iff.mp same
    have other : text ≠ "--" := by
      rintro rfl
      cases plain
    rw [List.append_cons] at compatible ⊢
    rw [readFrom, if_neg other, if_neg (Bool.eq_false_iff.mp plain)]
    have given := (setContents_gathered_iff compatible.of_append.of_append).mpr
      ⟨compatible.of_append, rfl⟩
    exact bind_eq_ok_iff.mpr ⟨_, given, ih rfl compatible⟩
  | @option word rest own' requests pending spelled makes ih =>
    cases Option.map_eq_none_iff.mp same
    obtain ⟨dashed, other⟩ := spelled.isOption
    rw [← List.append_assoc] at compatible ⊢
    rw [readFrom, if_neg other, if_pos dashed]
    have read := (readOption_gathered_iff compatible.of_append.of_append dashed).mpr
      ⟨_, spelled, compatible.of_append, rfl⟩
    exact bind_eq_ok_iff.mpr ⟨_, read, ih (by cases pending <;> rfl) compatible⟩
  | @value x text r rest requests plain means makes ih =>
    obtain ⟨⟨option, x⟩, rfl, rfl⟩ := Option.map_eq_some_iff.mp same
    rw [List.append_cons] at compatible ⊢
    rw [readFrom, if_neg (Bool.eq_false_iff.mp plain)]
    refine bind_eq_ok_iff.mpr ⟨gathered (done ++ [r]), ?_, ih rfl compatible⟩
    exact (set_gathered_iff compatible.of_append.of_append).mpr
      ⟨r, means, compatible.of_append, rfl⟩

/-- A row of arguments is accepted just if it makes requests that do not clash, and the settings are
what these come to. -/
theorem readAll_eq_ok_iff {arguments : List String} :
    initial.readAll arguments = .ok s ↔ Asks arguments s := by
  constructor
  · intro found
    exact @exists_makes_of_readFrom [] s arguments none .nil found
  · rintro ⟨requests, makes, compatible, rfl⟩
    exact @readFrom_of_makes [] requests none arguments makes none rfl compatible

theorem exists_asks (goal : Goal) {texts : List String} {pairs : List (String × Value)}
    (accepted : List.Forall₂ (fun text pair => bindingOfText text = .ok pair) texts pairs)
    (printTree : Bool) (source : String) :
    ∃ arguments, Asks arguments ⟨false, some goal, pairs, printTree, false, some source⟩ := by
  have bound : ∃ row, Makes none row (pairs.map .binding ++ [.contents source]) := by
    induction accepted with
    | nil => exact ⟨_, .plain [source]⟩
    | @cons text pair _ _ means _ ih =>
      obtain ⟨row, makes⟩ := ih
      rw [← String.ofList_toList (s := text)] at means
      have bound := Makes.option (.long (.attached (.binding means))) makes
      exact ⟨_, bound⟩
  obtain ⟨row, makes⟩ := bound
  obtain ⟨name, means⟩ : ∃ name : List Char, Goal.ofText? (.ofList name) = some goal := by
    match goal with
    | .boolean => exact ⟨"boolean".toList, rfl⟩
    | .number (.whole .int) => exact ⟨"int".toList, rfl⟩
    | .number (.whole .long) => exact ⟨"long".toList, rfl⟩
    | .number .double => exact ⟨"double".toList, rfl⟩
  have asked := Makes.option (.long (.attached (.goal means))) makes
  cases printTree with
  | false =>
    have alone : Compatible [.goal goal] := List.pairwise_singleton _ _
    obtain ⟨compatible, same⟩ := gathered_append_contents alone rfl pairs source
    rw [List.append_assoc] at compatible same
    exact ⟨_, _, asked, compatible, same.symm⟩
  | true =>
    have apart : Compatible [.flag .printTree, .goal goal] := by
      simp [Compatible, Request.Clash]
    obtain ⟨compatible, same⟩ := gathered_append_contents apart rfl pairs source
    rw [List.append_assoc] at compatible same
    exact ⟨_, _, .option (.long (.flag .printTree)) asked, compatible, same.symm⟩

end Rows

end Formula.Command
