import Activation.Text.Inspect
import Activation.Toml.Library
import Activation.World

/-! # Settings

The knobs of the library: whether changes of counts are reported, how many frames a walk may visit,
and which events a program shows. They are read from a TOML document, adjusted by variables of the
environment, and applied to a world.

* `Settings.parse` and `Settings.serialize` leave the documents to a TOML library;
* `Settings.ofToml` reads a document and `Settings.toToml` writes one with `Toml.library`;
* `Settings.override` takes the variables into account;
* `Settings.apply` installs the knobs.
-/

namespace Activation
set_option autoImplicit false

structure Settings where
  /-- Whether every retain and release is reported. -/
  dumpChanges : Bool := false
  /-- Upper bound on the frames of one walk. -/
  maxDepth : Nat := defaultMaxDepth
  /-- Which events are shown. -/
  filter : Option String := none
deriving DecidableEq, Repr

/-- Why settings are refused. -/
inductive SettingsError where
  /-- The text is no TOML document, or a value has the wrong type. -/
  | malformed
  | invalid (key : String) (value : String)
deriving DecidableEq, Repr

def SettingsError.message : SettingsError → String
  | .malformed => "invalid configuration:"
  | .invalid key value => "invalid value '" ++ value ++ "' for " ++ key

namespace Settings

/-- The variable that overrides `dumpChanges`. -/
def dumpRefsVariable : String := "UMBRA_DUMP_REFS"

/-- The variable that overrides `maxDepth`. -/
def maxDepthVariable : String := "UMBRA_WALK_MAX_DEPTH"

/-- One more than the largest size. -/
def sizeBound : Nat := 0x10000000000000000

/-- Walks need room for at least one frame. -/
def validate (s : Settings) : Except SettingsError Settings :=
  if s.maxDepth = 0 then .error (.invalid "walk.max_depth" "0") else .ok s

/-! ## Reading a document -/

/-- The value of the only field of a section, which is written as a table with the field's key or as
an array with the value in front; a date counts as a table without the key. What else stands in a
table must be readable, and what else stands in an array does not matter. The outer option is empty
when this fails or the section is neither. -/
def fieldOf (key : String) : Toml.Value → Option (Option Toml.Value)
  | .table _ entries =>
    if Toml.entriesReadable entries then some (entries.lookup key) else none
  | .array _ items => some items.head?
  | .datetime => some none
  | _ => none

/-- Reads the only field of a section that may be absent, as may the section. -/
def readField {α : Type} (entries : Toml.Entries) (name key : String) (absent : α)
    (read : Toml.Value → Option α) : Except SettingsError α :=
  match entries.lookup name with
  | none => .ok absent
  | some value =>
    match fieldOf key value with
    | none => .error .malformed
    | some none => .ok absent
    | some (some v) =>
      match read v with
      | none => .error .malformed
      | some a => .ok a

def readBool : Toml.Value → Option Bool
  | .boolean b => some b
  | _ => none

def readSize : Toml.Value → Option Nat
  | .integer n => if 0 ≤ n ∧ n < sizeBound then some n.toNat else none
  | _ => none

def readText : Toml.Value → Option (Option String)
  | .string s => some (some s)
  | _ => none

/-- The sections of a document that mean something. -/
def sections : List String := ["refs", "walk", "log"]

/-- The settings in the entries of a document. Sections without a meaning must still be readable. -/
def ofEntries (entries : Toml.Entries) : Except SettingsError Settings := do
  if !Toml.entriesReadable (entries.filter fun e => !sections.contains e.1) then
    .error .malformed
  let dumpChanges ← readField entries "refs" "dump_changes" false readBool
  let maxDepth ← readField entries "walk" "max_depth" defaultMaxDepth readSize
  let filter ← readField entries "log" "filter" none readText
  pure { dumpChanges, maxDepth, filter }

/-- Reads and validates a document. -/
def parse (toml : Toml.Library) (text : String) : Except SettingsError Settings :=
  match toml.read text with
  | none => .error .malformed
  | some entries => (ofEntries entries).bind validate

def ofToml (text : String) : Except SettingsError Settings := parse Toml.library text

/-! ## Writing a document -/

/-- Every section is written, even without its field. -/
def toDocument (s : Settings) : Toml.Document :=
  [("refs", [("dump_changes", .boolean s.dumpChanges)]),
    ("walk", [("max_depth", .integer s.maxDepth)]),
    ("log", s.filter.toList.map fun text => ("filter", .string text))]

def serialize (toml : Toml.Library) (s : Settings) : Option String := toml.write s.toDocument

def toToml (s : Settings) : String := s.toDocument.text

/-! ## Reading a file -/

/-- Why a file of settings is not accepted. -/
inductive LoadError where
  | unreadable (path : String) (cause : String)
  | refused (path : String) (cause : SettingsError)
deriving DecidableEq, Repr

/-- What went wrong, from the outside to the inside. -/
def LoadError.chain : LoadError → List String
  | .unreadable path cause => ["failed to read config file " ++ path, cause]
  | .refused path cause => ["in config file " ++ path, cause.message]

/-- The settings in a file whose contents, or the reason why it cannot be read, are given. -/
def load (path : String) (contents : Except String String) : Except LoadError Settings :=
  match contents with
  | .error cause => .error (.unreadable path cause)
  | .ok text =>
    match ofToml text with
    | .error e => .error (.refused path e)
    | .ok s => .ok s

/-! ## Variables of the environment -/

/-- The two states of a switch, each in several spellings. Blanks around it and the case of letters
do not matter. -/
def readSwitch (raw : String) : Option Bool :=
  let word := Text.lowerCase (Text.trim raw)
  if word ∈ ["1", "true", "on", "yes"] then some true
  else if word ∈ ["0", "false", "off", "no", ""] then some false
  else none

/-- Adjusts the settings by the variables that are set. -/
def override (s : Settings) (lookup : String → Option String) : Except SettingsError Settings := do
  let s ←
    match lookup dumpRefsVariable with
    | none => .ok s
    | some raw =>
      match readSwitch raw with
      | none => .error (.invalid dumpRefsVariable raw)
      | some b => .ok { s with dumpChanges := b }
  let s ←
    match lookup maxDepthVariable with
    | none => .ok s
    | some raw =>
      match Text.readNumber sizeBound (Text.trim raw) with
      | none => .error (.invalid maxDepthVariable raw)
      | some n => .ok { s with maxDepth := n }
  s.validate

/-! ## Applying -/

/-- Installs the knobs, and says so. -/
def apply {ε : Type} (s : Settings) (w : World ε) : World ε :=
  let w := { w with dumpRefs := s.dumpChanges }.setMaxDepth s.maxDepth
  w.emit ⟨.debug, "umbra::config", "applied configuration",
    [("dump_ref_changes", .text (Text.inspectBool s.dumpChanges)),
      ("walk_max_depth", .text (toString s.maxDepth))]⟩

end Settings

end Activation
