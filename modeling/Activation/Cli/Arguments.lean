import Activation.Generator.Basic
import Activation.Text.Blank
import Activation.World.Walk

/-! # The command line

What a user may ask of the program, and how it is written: options before the command, the command,
and the options of the command. An option that takes a value has it in the next argument or after an
equals sign; no option is given twice, except that the file of settings may be named once before and
once after the command, and then the latter counts.
-/

namespace Activation.Cli
set_option autoImplicit false

inductive Command where
  /-- Prints the logical call stack as seen from inside an awaited coroutine. -/
  | stack (detail : Detail) (json : Bool)
  /-- Takes and gives back references to one object and reports the counts. -/
  | refcount (immortal : Bool) (ops : Nat)
  /-- Drives a generator to its end and prints its states. -/
  | generator (kind : GeneratorKind) (yields : Nat) (interpreted : Bool)
  /-- Gives back more references than there are. -/
  | underflow
deriving DecidableEq, Repr

def inspectDetail : Detail → String
  | .names => "Names"
  | .lines => "Lines"
  | .frames => "Frames"

def Command.inspect : Command → String
  | .stack detail json =>
    Text.inspectFields "Stack" [("detail", inspectDetail detail), ("json", Text.inspectBool json)]
  | .refcount immortal ops =>
    Text.inspectFields "Refcount" [("immortal", Text.inspectBool immortal), ("ops", toString ops)]
  | .generator kind yields interpreted =>
    Text.inspectFields "Generator"
      [("kind", kind.inspect), ("yields", toString yields),
       ("interpreted", Text.inspectBool interpreted)]
  | .underflow => "Underflow"

/-- What the command line asks for. -/
inductive Request where
  | version
  | help
  | run (config : Option String) (command : Command)
deriving DecidableEq, Repr

/-! ## Arguments -/

/-- The shapes of an argument. -/
inductive Arg where
  /-- Two dashes: no option follows. -/
  | escape
  | long (name : String) (value : Option String)
  | short (letters : List Char)
  | plain (text : String)

def Arg.ofString (text : String) : Arg :=
  match text.toList with
  | ['-', '-'] => .escape
  | '-' :: '-' :: body =>
    let name := body.takeWhile fun c => c ≠ '='
    match body.drop name.length with
    | [] => .long (String.ofList name) none
    | _ :: value => .long (String.ofList name) (some (String.ofList value))
  | '-' :: c :: letters => .short (c :: letters)
  | _ => .plain text

/-- The value of an option, attached to it or in the next argument, and the arguments after it. -/
def takeValue (attached : Option String) (rest : List String) : Option (String × List String) :=
  match attached, rest with
  | some value, rest => some (value, rest)
  | none, value :: rest =>
    match Arg.ofString value with
    | .plain _ => some (value, rest)
    | _ => none
  | none, [] => none

/-! ## Values -/

def readDetail (text : String) : Option Detail :=
  [("names", Detail.names), ("lines", .lines), ("frames", .frames)].lookup text

def readKind (text : String) : Option GeneratorKind :=
  [("generator", GeneratorKind.generator), ("coroutine", .coroutine)].lookup text

def readOps (text : String) : Option Nat := Text.readNumber 0x10000000000000000 text

def readYields (text : String) : Option Nat := Text.readNumber 0x100000000 text

/-- The path of a file is not empty. -/
def readPath (text : String) : Option (Option String) :=
  if text.isEmpty then none else some (some text)

/-! ## The options of a command -/

/-- The options that a command knows, apart from the file of settings. Each option with a value says
which values it allows. -/
structure Options where
  valued : List (String × (String → Bool)) := []
  flags : List String := []

/-- The options that were given. -/
structure Given where
  values : List (String × String) := []
  flags : List String := []

/-- The file of settings, which every command knows. -/
def configOption : String := "config"

/-- Which values an option allows; nothing when it takes none. -/
def Options.allowed? (known : Options) (name : String) : Option (String → Bool) :=
  ((configOption, fun text => (readPath text).isSome) :: known.valued).lookup name

/-- Reads the options of a command from at most `fuel` arguments, each checked as it is read, so that
what is wrong in front of a request for help counts. The inner option is empty when help is asked
for. -/
def readOptions (known : Options) : Nat → Given → List String → Option (Option Given)
  | _, given, [] => some (some given)
  | 0, _, _ :: _ => none
  | fuel + 1, given, arg :: rest =>
    match Arg.ofString arg with
    | .escape => if rest.isEmpty then some (some given) else none
    | .plain _ => none
    | .short letters => if letters.head? = some 'h' then some none else none
    | .long name attached =>
      match known.allowed? name with
      | some allowed =>
        match takeValue attached rest with
        | none => none
        | some (value, rest) =>
          if (given.values.lookup name).isSome || !allowed value then none
          else readOptions known fuel { given with values := (name, value) :: given.values } rest
      | none =>
        if name ∈ known.flags then
          if attached.isSome || name ∈ given.flags then none
          else readOptions known fuel { given with flags := name :: given.flags } rest
        else if name = "help" && attached.isNone then some none
        else none

namespace Given

/-- The value of an option, or else its default. A value that cannot be read is an error. -/
def value {α : Type} (g : Given) (name : String) (default : α) (read : String → Option α) :
    Option α :=
  match g.values.lookup name with
  | none => some default
  | some text => read text

def flag (g : Given) (name : String) : Bool := name ∈ g.flags

end Given

/-! ## Commands -/

/-- The names of the commands, with their options. -/
def commands : List (String × Options) :=
  [("stack", { valued := [("detail", fun text => (readDetail text).isSome)], flags := ["json"] }),
   ("refcount", { valued := [("ops", fun text => (readOps text).isSome)], flags := ["immortal"] }),
   ("generator",
     { valued := [("kind", fun text => (readKind text).isSome),
        ("yields", fun text => (readYields text).isSome)],
       flags := ["interpreted"] }),
   ("underflow", {})]

/-- The command of that name with the given options. -/
def Command.ofGiven (name : String) (g : Given) : Option Command :=
  if name = "stack" then do
    pure (.stack (← g.value "detail" .names readDetail) (g.flag "json"))
  else if name = "refcount" then do
    pure (.refcount (g.flag "immortal") (← g.value "ops" 1000 readOps))
  else if name = "generator" then do
    let kind ← g.value "kind" .generator readKind
    let yields ← g.value "yields" 3 readYields
    pure (.generator kind yields (g.flag "interpreted"))
  else if name = "underflow" then some .underflow
  else none

/-- Reads a command and its options; `config` is the file of settings named before it. -/
def readCommand (config : Option String) (name : String) (rest : List String) : Option Request :=
  if name = "help" then
    match rest with
    | [] => some .help
    | [topic] => if topic ∈ "help" :: commands.map Prod.fst then some .help else none
    | _ => none
  else do
    let known ← commands.lookup name
    match ← readOptions known rest.length {} rest with
    | none => pure .help
    | some given =>
      let config ← given.value configOption config readPath
      pure (.run config (← Command.ofGiven name given))

/-! ## The whole line -/

/-- Reads at most `fuel` arguments up to and with the command. -/
def readFrom : Nat → Option String → List String → Option Request
  | _, _, [] => none
  | 0, _, _ :: _ => none
  | fuel + 1, config, arg :: rest =>
    match Arg.ofString arg with
    | .escape => none
    | .plain name => readCommand config name rest
    | .short letters =>
      if letters.head? = some 'V' then some .version
      else if letters.head? = some 'h' then some .help
      else none
    | .long name attached =>
      if name = configOption then
        match takeValue attached rest with
        | none => none
        | some (path, rest) =>
          if config.isSome || path.isEmpty then none else readFrom fuel (some path) rest
      else if attached.isSome then none
      else if name = "version" then some .version
      else if name = "help" then some .help
      else none

/-- What the arguments ask for; nothing when they are not understood. -/
def Request.read (args : List String) : Option Request := readFrom args.length none args

end Activation.Cli
