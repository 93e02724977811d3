import Activation.Cli.Arguments
import Activation.Cli.CountDemo
import Activation.Cli.StackDemo
import Activation.Cli.TickerDemo
import Activation.Log.Filter
import Activation.Settings

/-! # The program

From the command line, the file of settings and the environment to what the program prints, what it
logs, and how it ends.
-/

namespace Activation.Cli
set_option autoImplicit false

/-- How the program ends. -/
inductive Exit where
  | success
  /-- The command line was not understood. -/
  | usage
  /-- What went wrong, from the outside to the inside. -/
  | failed (causes : List String)
  | aborted (lastWords : String)
deriving DecidableEq, Repr

/-- The status of the program, if it ends of itself. -/
def Exit.code : Exit → Option Nat
  | .success => some 0
  | .usage => some 2
  | .failed _ => some 1
  | .aborted _ => none

structure Report where
  output : String := ""
  /-- The events that are shown. -/
  log : List Event := []
  exit : Exit := .success
deriving DecidableEq, Repr

/-! ## Errors -/

/-- A text whose first line begins with `first` and whose other lines begin with `others`. -/
def indent (first others : String) (text : String) : String :=
  first ++ String.join (text.toList.map fun c => if c = '\n' then "\n" ++ others else c.toString)

/-- The causes of an error. Several are numbered. -/
def causeLines (causes : List String) : List String :=
  match causes with
  | [cause] => [indent "    " "    " cause]
  | _ => causes.mapIdx fun i cause => indent (padLeft 5 (toString i) ++ ": ") "       " cause

/-- The last words of a program that failed. -/
def errorText (causes : List String) : String :=
  let inner := causeLines causes.tail
  "Error: " ++ causes.headD "" ++ "\n"
    ++ (if inner.isEmpty then "" else "\nCaused by:\n" ++ "\n".intercalate inner ++ "\n")

def Exit.lastWords : Exit → Option String
  | .success => none
  | .usage => none
  | .failed causes => some (errorText causes)
  | .aborted lastWords => some lastWords

/-! ## Settings -/

/-- The settings from the file, if one is named, and from the environment. -/
def loadSettings (config : Option String) (readFile : String → Except String String)
    (lookup : String → Option String) : Except (List String) Settings := do
  let s ←
    match config with
    | none => .ok {}
    | some path =>
      match Settings.load path (readFile path) with
      | .ok s => .ok s
      | .error e => .error e.chain
  match s.override lookup with
  | .ok s => .ok s
  | .error e => .error ["invalid UMBRA_* environment override", e.message]

/-! ## Commands -/

/-- A world in which the settings are applied and the command is announced. -/
def start {ε : Type} (s : Settings) (c : Command) (host : ε) : World ε :=
  (s.apply { host }).emit ⟨.debug, "umbra::cli", "dispatching", [("command", .text c.inspect)]⟩

def runCommand (s : Settings) (c : Command) : Demo :=
  match c with
  | .stack detail json => stackDemo json (start s c { detail })
  | .refcount immortal ops => refcountDemo immortal ops (start s c ())
  | .generator kind yields interpreted => tickerDemo kind interpreted (start s c { yields })
  | .underflow => underflowDemo (start s c ())

def DemoEnding.exit : DemoEnding → Exit
  | .success => .success
  | .failed message => .failed [message]
  | .aborted lastWords => .aborted lastWords

def linesText (lines : List String) : String := String.join (lines.map fun line => line ++ "\n")

def versionText : String := "umbra 0.1.0"

def helpLines : List String :=
  ["Diagnostic driver for the Umbra frame tracking core",
   "",
   "Usage: umbra [--config <FILE>] <COMMAND>",
   "",
   "Commands:",
   "  stack [--detail <names|lines|frames>] [--json]",
   "  refcount [--immortal] [--ops <N>]",
   "  generator [--kind <generator|coroutine>] [--yields <N>] [--interpreted]",
   "  underflow"]

/-- Runs the program on its arguments. Files and variables of the environment are looked up by the
given functions; a file that cannot be read gives the reason. -/
def run (args : List String) (readFile : String → Except String String)
    (lookup : String → Option String) : Report :=
  match Request.read args with
  | none => { exit := .usage }
  | some .version => { output := linesText [versionText] }
  | some .help => { output := linesText helpLines }
  | some (.run config command) =>
    match loadSettings config readFile lookup with
    | .error causes => { exit := .failed causes }
    | .ok s =>
      let demo := runCommand s command
      let log :=
        match Log.Filter.choose lookup s.filter with
        | none => []
        | some filter => demo.events.filter filter.shows
      { output := linesText demo.lines, log, exit := demo.ending.exit }

end Activation.Cli
