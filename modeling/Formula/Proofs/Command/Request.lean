import Formula.Command
import Mathlib.Data.List.Induction
import Mathlib.Logic.Basic

/-! What the command line can be asked for, and how it is asked by rows of arguments. -/

namespace Formula.Command

inductive Request
  | flag (f : Flag)
  | goal (g : Goal)
  | binding (pair : String × Value)
  | contents (text : String)

namespace Request

@[simp] def goal? : Request → Option Goal
  | .goal g => some g
  | _ => none

@[simp] def binding? : Request → Option (String × Value)
  | .binding pair => some pair
  | _ => none

@[simp] def contents? : Request → Option String
  | .contents text => some text
  | _ => none

def isFlag : Flag → Request → Bool
  | .file, .flag .file => true
  | .printTree, .flag .printTree => true
  | .verbose, .flag .verbose => true
  | _, _ => false

/-- Of all requests but bindings there may be one of each sort. -/
def Clash : Request → Request → Prop
  | .flag f, r => r.isFlag f
  | .goal _, .goal _ => True
  | .contents _, .contents _ => True
  | _, _ => False

end Request

def Compatible (requests : List Request) : Prop := requests.Pairwise fun r r' => ¬ r'.Clash r

/-- What the requests come to. Their order matters for bindings only. -/
def Settings.gathered (requests : List Request) : Settings where
  fromFile := requests.any (Request.isFlag .file)
  goal := requests.findSome? Request.goal?
  bindings := requests.filterMap Request.binding?
  printTree := requests.any (Request.isFlag .printTree)
  verbose := requests.any (Request.isFlag .verbose)
  contents := requests.findSome? Request.contents?

def Flag.name : Flag → String
  | .file => "file"
  | .printTree => "print-tree"
  | .verbose => "verbose"

def Setting.name : Setting → String
  | .goal => "type"
  | .binding => "var"

def Setting.letter : Setting → Char
  | .goal => 't'
  | .binding => 'v'

inductive Setting.Means : Setting → String → Request → Prop
  | goal {text : String} {g : Goal} : Goal.ofText? text = some g → Means .goal text (.goal g)
  | binding {text : String} {pair : String × Value} :
      bindingOfText text = .ok pair → Means .binding text (.binding pair)

def attached : List Char → List Char
  | '=' :: value => value
  | value => value

/-- The letters behind one dash, the requests that they make, and the option that still wants its
value. -/
inductive Letters : List Char → List Request → Option Setting → Prop
  | nil : Letters [] [] none
  | file {letters : List Char} {requests : List Request} {pending : Option Setting} :
      Letters letters requests pending → Letters ('f' :: letters) (.flag .file :: requests) pending
  | apart (x : Setting) : Letters [x.letter] [] (some x)
  | attached {x : Setting} {letters : List Char} {r : Request} :
      letters ≠ [] → x.Means (.ofList (attached letters)) r →
      Letters (x.letter :: letters) [r] none

inductive Long : List Char → List Request → Option Setting → Prop
  | flag (f : Flag) : Long f.name.toList [.flag f] none
  | apart (x : Setting) : Long x.name.toList [] (some x)
  | attached {x : Setting} {value : List Char} {r : Request} :
      x.Means (.ofList value) r → Long (x.name.toList ++ '=' :: value) [r] none

inductive Spells : String → List Request → Option Setting → Prop
  | short {letters : List Char} {requests : List Request} {pending : Option Setting} :
      letters ≠ [] → Letters letters requests pending →
      Spells (.ofList ('-' :: letters)) requests pending
  | long {text : List Char} {requests : List Request} {pending : Option Setting} :
      Long text requests pending → Spells (.ofList ('-' :: '-' :: text)) requests pending

/-- A row of arguments behind an option that may want a value, and the requests that it makes in
their order. -/
inductive Makes : Option Setting → List String → List Request → Prop
  | nil : Makes none [] []
  | plain (texts : List String) : Makes none ("--" :: texts) (texts.map .contents)
  | contents {text : String} {rest : List String} {requests : List Request} :
      Settings.isOption text = false → Makes none rest requests →
      Makes none (text :: rest) (.contents text :: requests)
  | option {word : String} {rest : List String} {own requests : List Request}
      {pending : Option Setting} :
      Spells word own pending → Makes pending rest requests →
      Makes none (word :: rest) (own ++ requests)
  | value {x : Setting} {text : String} {r : Request} {rest : List String}
      {requests : List Request} :
      Settings.isOption text = false → x.Means text r → Makes none rest requests →
      Makes (some x) (text :: rest) (r :: requests)

def Asks (arguments : List String) (settings : Settings) : Prop :=
  ∃ requests, Makes none arguments requests ∧ Compatible requests ∧ settings = .gathered requests

section Steps

open Settings

variable {done : List Request} {option value : String} {f : Flag} {r : Request} {x : Setting}
  {s : Settings}

theorem compatible_concat_iff :
    Compatible (done ++ [r]) ↔ Compatible done ∧ ∀ q ∈ done, ¬ r.Clash q := by
  simp [Compatible, List.pairwise_append]

theorem Compatible.of_append {requests : List Request}
    (compatible : Compatible (done ++ requests)) : Compatible done :=
  (List.pairwise_append.mp compatible).1

theorem gathered_concat (done : List Request) (r : Request) :
    gathered (done ++ [r]) =
      { fromFile := (gathered done).fromFile || r.isFlag .file
        goal := (gathered done).goal.or r.goal?
        bindings := (gathered done).bindings ++ r.binding?.toList
        printTree := (gathered done).printTree || r.isFlag .printTree
        verbose := (gathered done).verbose || r.isFlag .verbose
        contents := (gathered done).contents.or r.contents? } := by
  cases r <;> simp [gathered, List.findSome?_append, List.filterMap_cons]

theorem switchOn_gathered_iff (compatible : Compatible done) :
    (gathered done).switchOn option f = .ok s ↔
      Compatible (done ++ [.flag f]) ∧ s = gathered (done ++ [.flag f]) := by
  have free : (∀ q ∈ done, ¬ (Request.flag f).Clash q) ↔ done.any (Request.isFlag f) = false := by
    simp [Request.Clash]
  rw [compatible_concat_iff, free, gathered_concat]
  cases given : done.any (Request.isFlag f) <;>
    cases f <;>
    simp [switchOn, gathered, given, compatible, Request.isFlag, eq_comm (b := s)]

theorem forall_not_clash_contents_iff {text : String} :
    (∀ q ∈ done, ¬ (Request.contents text).Clash q) ↔ (gathered done).contents = none := by
  rw [gathered, List.findSome?_eq_none_iff]
  refine forall₂_congr fun q _ => ?_
  cases q <;> simp [Request.Clash]

theorem setContents_gathered_iff (compatible : Compatible done) :
    (gathered done).setContents value = .ok s ↔
      Compatible (done ++ [.contents value]) ∧ s = gathered (done ++ [.contents value]) := by
  rw [compatible_concat_iff, forall_not_clash_contents_iff, gathered_concat]
  cases given : (gathered done).contents <;>
    simp [setContents, given, compatible, Request.isFlag, eq_comm (b := s)]

theorem gathered_append_bindings (compatible : Compatible done) (pairs : List (String × Value)) :
    Compatible (done ++ pairs.map .binding) ∧
      gathered (done ++ pairs.map .binding) =
        { gathered done with bindings := (gathered done).bindings ++ pairs } := by
  induction pairs using List.reverseRecOn with
  | nil => simp [compatible]
  | append_singleton pairs pair ih =>
    rw [List.map_append, List.map_singleton, ← List.append_assoc]
    refine ⟨compatible_concat_iff.mpr ⟨ih.1, fun _ _ => id⟩, ?_⟩
    rw [gathered_concat, ih.2]
    simp [Request.isFlag]

theorem gathered_append_contents (compatible : Compatible done)
    (free : (gathered done).contents = none) (pairs : List (String × Value)) (source : String) :
    Compatible (done ++ pairs.map .binding ++ [.contents source]) ∧
      gathered (done ++ pairs.map .binding ++ [.contents source]) =
        { gathered done with
          bindings := (gathered done).bindings ++ pairs, contents := some source } := by
  obtain ⟨bound, same⟩ := gathered_append_bindings compatible pairs
  rw [compatible_concat_iff, forall_not_clash_contents_iff, gathered_concat, same, free]
  simp [bound, Request.isFlag]

theorem Setting.means_goal_iff :
    Means .goal value r ↔ ∃ g, Goal.ofText? value = some g ∧ r = .goal g :=
  ⟨fun | .goal found => ⟨_, found, rfl⟩, fun ⟨_, found, same⟩ => same ▸ .goal found⟩

theorem Setting.means_binding_iff :
    Means .binding value r ↔ ∃ pair, bindingOfText value = .ok pair ∧ r = .binding pair :=
  ⟨fun | .binding found => ⟨_, found, rfl⟩, fun ⟨_, found, same⟩ => same ▸ .binding found⟩

theorem set_gathered_iff (compatible : Compatible done) :
    (gathered done).set option value x = .ok s ↔
      ∃ r, x.Means value r ∧ Compatible (done ++ [r]) ∧ s = gathered (done ++ [r]) := by
  cases x with
  | goal =>
    have free (g : Goal) : (∀ q ∈ done, ¬ (Request.goal g).Clash q) ↔
        (gathered done).goal = none := by
      rw [gathered, List.findSome?_eq_none_iff]
      refine forall₂_congr fun q _ => ?_
      cases q <;> simp [Request.Clash]
    cases found : Goal.ofText? value with
    | none => simp [Settings.set, Setting.means_goal_iff, found]
    | some g =>
      cases given : (gathered done).goal <;>
        simp [Settings.set, Setting.means_goal_iff, compatible_concat_iff, gathered_concat, free,
          found, given, compatible, Request.isFlag, eq_comm (b := s)]
  | binding =>
    have loose (pair : String × Value) : Compatible (done ++ [.binding pair]) :=
      compatible_concat_iff.mpr ⟨compatible, fun _ _ => id⟩
    have step : (gathered done).set option value .binding =
        (bindingOfText value).map fun pair => gathered (done ++ [.binding pair]) := by
      simp only [Settings.set, gathered_concat, Request.isFlag, Request.goal?, Request.binding?,
        Request.contents?, Bool.or_false, Option.or_none, Option.toList]
      cases bindingOfText value <;> rfl
    cases found : bindingOfText value <;>
      simp [Setting.means_binding_iff, step, found, loose, Except.map, eq_comm (b := s)]

end Steps

end Formula.Command
