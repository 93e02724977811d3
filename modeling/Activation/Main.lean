import Activation.Cli.Program

/-! # The command-line program

Reads the arguments, the environment and the file of settings, and prints the report.
-/

namespace Activation.Cli
set_option autoImplicit false

/-- The variables of the environment that the program looks at. -/
def consultedVariables : List String :=
  [Settings.dumpRefsVariable, Settings.maxDepthVariable, "UMBRA_TRACE", "RUST_LOG"]

/-- The file of settings that the arguments name. -/
def settingsFile (args : List String) : Option String :=
  match Request.read args with
  | some (.run config _) => config
  | _ => none

def readContents (path : String) : IO (Except String String) := do
  try
    return .ok (← IO.FS.readFile path)
  catch e =>
    match e with
    | .noFileOrDirectory .. => return .error "No such file or directory (os error 2)"
    | other => return .error (toString other)

/-- Runs the program. The status of an aborted program is the one of its signal. -/
def execute (args : List String) : IO UInt32 := do
  let environment ← consultedVariables.filterMapM fun name => do
    return (← IO.getEnv name).map fun value => (name, value)
  let contents ←
    match settingsFile args with
    | none => pure (.error "")
    | some path => readContents path
  let report := run args (fun _ => contents) fun name => environment.lookup name
  IO.print report.output
  for event in report.log do
    IO.eprintln event.render
  match report.exit with
  | .success => pure ()
  | .usage => IO.eprint (linesText helpLines)
  | .failed causes => IO.eprint (errorText causes)
  | .aborted lastWords => IO.eprintln lastWords
  return UInt32.ofNat (report.exit.code.getD 134)

end Activation.Cli

def main (args : List String) : IO UInt32 := Activation.Cli.execute args
