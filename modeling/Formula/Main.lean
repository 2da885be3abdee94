import Formula.Command

/-! The program: reads a file if the arguments ask for one, and prints the report. -/

namespace Formula.Command

def readFile? (path : String) : IO (Option String) := do
  try
    return some (← IO.FS.readFile path)
  catch _ =>
    return none

def execute (arguments : List String) : IO UInt32 := do
  let text ← match path? arguments with
    | some path => readFile? path
    | none => pure none
  let report := run (fun _ => text) arguments
  IO.print report.output
  IO.eprint report.errors
  return UInt32.ofNat report.exitCode

end Formula.Command

def main (arguments : List String) : IO UInt32 := Formula.Command.execute arguments
