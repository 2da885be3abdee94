import Formula.Eval
import Formula.Source
import Formula.Text.WhiteSpace

/-! The command line: its arguments, and what it answers. -/

namespace Formula

inductive UsageError
  | unknownOption (option : String)
  | repeatedOption (option : String)
  | missingValue (option : String)
  | unexpectedValue (option : String)
  | unknownGoal (text : String)
  | bindingWithoutValue (text : String)
  | bindingWithoutName (text : String)
  | missingExpression
  | unexpectedArgument (text : String)
  deriving DecidableEq, Repr

def UsageError.message : UsageError → String
  | .unknownOption option => s!"unknown option '{option}'"
  | .repeatedOption option => s!"option '{option}' may be given only once"
  | .missingValue option => s!"option '{option}' needs a value"
  | .unexpectedValue option => s!"option '{option}' takes no value"
  | .unknownGoal text => s!"'{text}' is none of boolean, int, long, double"
  | .bindingWithoutValue text => s!"expected name=value, found '{text}'"
  | .bindingWithoutName text => s!"missing variable name in '{text}'"
  | .missingExpression => "an expression is required"
  | .unexpectedArgument text => s!"unexpected argument '{text}'"

def Goal.ofText? : String → Option Goal
  | "boolean" => some .boolean
  | "int" => some (.number (.whole .int))
  | "long" => some (.number (.whole .long))
  | "double" => some (.number .double)
  | _ => none

namespace Command

def splitAtEquals : List Char → List Char × Option (List Char)
  | [] => ([], none)
  | c :: rest =>
    if c = '=' then ([], some rest)
    else
      let (before, after) := splitAtEquals rest
      (c :: before, after)

/-- Reads `name=value`; white space around either does not count. -/
def bindingOfText (text : String) : Except UsageError (String × Value) :=
  match splitAtEquals text.toList with
  | (_, none) => .error (.bindingWithoutValue text)
  | (before, some after) =>
    let name := Text.trim (String.ofList before)
    if name = "" then .error (.bindingWithoutName text)
    else .ok (name, Value.ofText (Text.trim (String.ofList after)))

structure Settings where
  fromFile : Bool
  goal : Option Goal
  bindings : List (String × Value)
  printTree : Bool
  verbose : Bool
  /-- The expression, or the path of the file that holds it. -/
  contents : Option String

inductive Flag
  | file
  | printTree
  | verbose

inductive Setting
  | goal
  | binding

namespace Settings

def initial : Settings := ⟨false, none, [], false, false, none⟩

def switchOn (s : Settings) (option : String) : Flag → Except UsageError Settings
  | .file =>
    if s.fromFile then .error (.repeatedOption option) else .ok { s with fromFile := true }
  | .printTree =>
    if s.printTree then .error (.repeatedOption option) else .ok { s with printTree := true }
  | .verbose =>
    if s.verbose then .error (.repeatedOption option) else .ok { s with verbose := true }

def set (s : Settings) (option value : String) : Setting → Except UsageError Settings
  | .goal =>
    match Goal.ofText? value with
    | none => .error (.unknownGoal value)
    | some goal =>
      if s.goal.isSome then .error (.repeatedOption option) else .ok { s with goal := some goal }
  | .binding => do
    let binding ← bindingOfText value
    return { s with bindings := s.bindings ++ [binding] }

def setContents (s : Settings) (contents : String) : Except UsageError Settings :=
  if s.contents.isSome then .error (.unexpectedArgument contents)
  else .ok { s with contents := some contents }

/-- Reads the letters of an argument with one dash. A letter of an option that takes a value takes
all that follows it, or else the next argument. -/
def readShort (s : Settings) : List Char → Except UsageError (Settings × Option Setting)
  | [] => .ok (s, none)
  | 'f' :: rest => do (← s.switchOn "-f" .file).readShort rest
  | 't' :: rest => valueOf "-t" .goal rest
  | 'v' :: rest => valueOf "-v" .binding rest
  | letter :: _ => .error (.unknownOption ("-" ++ letter.toString))
where
  valueOf (option : String) (setting : Setting) (rest : List Char) :
      Except UsageError (Settings × Option Setting) :=
    match rest with
    | [] => .ok (s, some setting)
    | '=' :: value => return (← s.set option (String.ofList value) setting, none)
    | value => return (← s.set option (String.ofList value) setting, none)

def readLong (s : Settings) (text : List Char) : Except UsageError (Settings × Option Setting) :=
  let (before, value) := splitAtEquals text
  let option := "--" ++ String.ofList before
  match String.ofList before with
  | "file" => flag option value .file
  | "print-tree" => flag option value .printTree
  | "verbose" => flag option value .verbose
  | "type" => setting option value .goal
  | "var" => setting option value .binding
  | _ => .error (.unknownOption option)
where
  flag (option : String) (value : Option (List Char)) (f : Flag) :
      Except UsageError (Settings × Option Setting) :=
    match value with
    | none => return (← s.switchOn option f, none)
    | some _ => .error (.unexpectedValue option)
  setting (option : String) (value : Option (List Char)) (x : Setting) :
      Except UsageError (Settings × Option Setting) :=
    match value with
    | none => .ok (s, some x)
    | some value => return (← s.set option (String.ofList value) x, none)

/-- Whether an argument starts with a dash and is more than one. -/
def isOption (argument : String) : Bool :=
  match argument.toList with
  | '-' :: _ :: _ => true
  | _ => false

def readOption (s : Settings) (argument : String) :
    Except UsageError (Settings × Option Setting) :=
  match argument.toList with
  | '-' :: '-' :: text => s.readLong text
  | text => s.readShort (text.drop 1)

/-- Reads the arguments in their order, the first one as the value of an option that still wants
its value. After `--` none is an option. -/
def readFrom (s : Settings) : Option (String × Setting) → List String → Except UsageError Settings
  | none, [] => .ok s
  | some (option, _), [] => .error (.missingValue option)
  | some (option, setting), value :: rest =>
    if isOption value then .error (.missingValue option)
    else do (← s.set option value setting).readFrom none rest
  | none, argument :: rest =>
    if argument = "--" then rest.foldlM setContents s
    else if isOption argument then do
      let (s, pending) ← s.readOption argument
      s.readFrom (pending.map (argument, ·)) rest
    else do (← s.setContents argument).readFrom none rest

def readAll (s : Settings) (arguments : List String) : Except UsageError Settings :=
  s.readFrom none arguments

end Settings

/-- What the program leaves behind, its log apart. -/
structure Report where
  exitCode : Nat
  output : String
  errors : String
  deriving DecidableEq, Repr

def line (text : String) : String := text ++ "\n"

/-- The report on a source: on demand the tree, then the value. The errors of a source that is no
expression come without a tree. -/
def answer (goal : Goal) (bindings : Bindings) (printTree : Bool) (source : String) : Report :=
  match Expr.ofSource goal Source.defaultLimit (Text.trim source) with
  | .error e => ⟨1, "", line e.message⟩
  | .ok tree =>
    let output := if printTree then line tree.text else ""
    match tree.eval bindings.context with
    | .error e => ⟨1, output, line e.message⟩
    | .ok value => ⟨0, output ++ line (goal.kind.text value), ""⟩

def unreadable (path : String) : String :=
  s!"Failed to read the input file '{path}'. Perhaps this file does not exist?"

/-- The report for a row of arguments, where `read` gives the text of a file. -/
def run (read : String → Option String) (arguments : List String) : Report :=
  match Settings.initial.readAll arguments with
  | .error e => ⟨2, "", line s!"error: {e.message}"⟩
  | .ok settings =>
    match settings.contents with
    | none => ⟨2, "", line s!"error: {UsageError.missingExpression.message}"⟩
    | some contents =>
      let source := if settings.fromFile then read contents else some contents
      match source with
      | none => ⟨1, "", line (unreadable contents)⟩
      | some source =>
        answer (settings.goal.getD .boolean) (.ofList settings.bindings) settings.printTree source

def path? (arguments : List String) : Option String :=
  match Settings.initial.readAll arguments with
  | .ok settings => if settings.fromFile then settings.contents else none
  | .error _ => none

end Command

end Formula
