import Activation.Event
import Activation.Log.Pattern
import Activation.Text.Alphanumeric
import Activation.Text.Blank

/-! # Filters

Which events a program shows. A filter is a list of rules, parted by commas:

* `level`: every event up to that level;
* `target=level`: the events whose target begins with the given text, up to that level;
* `target`: those events at all levels;
* `target[span\x7bfield=value\x7d]=level`, where all parts may be missing: the events inside a span of that
  name which have the field, and the field that value.

Of all rules that apply to an event the one with the longest target decides, then one that names a
field, then the one whose field comes last in the order of names; of two rules for the same events the
later one. An event without a rule is not shown.
-/

namespace Activation.Log
set_option autoImplicit false

/-- A rule for the events whose target begins with `target`, and which have the named field. -/
structure Rule where
  target : String := ""
  field : Option String := none
  /-- The finest level that is shown; nothing is shown without one. -/
  finest : Option Level
deriving DecidableEq, Repr

abbrev Filter := List Rule

/-! ## Applying -/

namespace Rule

/-- The names of an event's fields. The message is one of them. -/
def fieldNames (e : Event) : List String := "message" :: e.fields.map Prod.fst

def applies (r : Rule) (e : Event) : Bool :=
  r.target.toList.isPrefixOf e.target.toList && r.field.all fun name => (fieldNames e).contains name

def admits (r : Rule) (e : Event) : Bool := r.finest.any fun l => e.level.rank ≤ l.rank

/-- Whether a name comes before another one, or is the same. -/
def precedes : List Char → List Char → Bool
  | [], _ => true
  | _ :: _, [] => false
  | c :: cs, d :: ds => if c = d then precedes cs ds else c.toNat < d.toNat

/-- Whether `r` goes before `b`, which stands earlier, if both apply to an event. -/
def outranks (r b : Rule) : Bool :=
  if r.target.length = b.target.length then
    match b.field, r.field with
    | none, _ => true
    | some _, none => false
    | some old, some new => precedes old.toList new.toList
  else b.target.length < r.target.length

end Rule

namespace Filter

/-- The rule that decides about an event, given the best one among the rules before. -/
def deciding (e : Event) : Option Rule → Filter → Option Rule
  | best, [] => best
  | best, r :: rules =>
    let better := r.applies e && best.all fun b => r.outranks b
    deciding e (if better then some r else best) rules

def shows (f : Filter) (e : Event) : Bool := (deciding e none f).any fun r => r.admits e

end Filter

/-! ## Levels -/

def levelNames : List (String × Option Level) :=
  [("off", none), ("error", some .error), ("warn", some .warn), ("info", some .info),
   ("debug", some .debug), ("trace", some .trace)]

/-- A level by its name in any case, or by its rank; `off` has rank zero. -/
def readLevel (text : String) : Option (Option Level) :=
  match Text.readNumber levelNames.length text with
  | some rank => (levelNames[rank]?).map Prod.snd
  | none => levelNames.lookup (Text.lowerCase text)

/-- The level after an equals sign; without one all levels are meant. -/
def readThreshold (cs : List Char) : Option (Option Level) :=
  if cs.isEmpty then some (some .trace) else readLevel (String.ofList cs)

/-! ## Fields -/

/-- Whether a text is a number, perhaps with a sign, a fraction or an exponent, or one of the words for
what is no number. -/
def isNumber (cs : List Char) : Bool :=
  let unsigned (cs : List Char) : List Char :=
    match cs with
    | '+' :: cs => cs
    | '-' :: cs => cs
    | cs => cs
  let body := unsigned cs
  let whole := body.takeWhile Char.isDigit
  let (fraction, rest) :=
    match body.drop whole.length with
    | '.' :: cs => (cs.takeWhile Char.isDigit, cs.dropWhile Char.isDigit)
    | cs => ([], cs)
  let exponent :=
    match rest with
    | [] => true
    | c :: cs =>
      let digits := unsigned cs
      (c = 'e' || c = 'E') && !digits.isEmpty && digits.all Char.isDigit
  (!(whole ++ fraction).isEmpty && exponent)
    || ["inf", "infinity", "nan"].contains (Text.lowerCase (String.ofList body))

/-- A field by its name, or by its name and a value after an equals sign. A value is a number or a
pattern, and whatever follows a second equals sign does not count. The name comes with whether there is
a value. -/
def readField (cs : List Char) : Option (String × Bool) :=
  let isPart (c : Char) := c ≠ '='
  let name := String.ofList (cs.takeWhile isPart)
  match cs.dropWhile isPart with
  | [] => some (name, false)
  | _ :: rest =>
    let value := rest.takeWhile isPart
    if isNumber value || isPattern value then some (name, true) else none

/-! ## Rules -/

/-- The characters with which a target may begin. -/
def beginsTarget (c : Char) : Bool :=
  c = '-' || c = ':' || c = '_' || Text.isAlphanumeric c

/-- The number of bytes that a text takes. -/
def byteLength (cs : List Char) : Nat := cs.foldl (fun n c => n + c.utf8Size) 0

/-- A text without its first `n` bytes, which make up whole characters. -/
def dropBytes : Nat → List Char → Option (List Char)
  | 0, cs => some cs
  | _ + 1, [] => none
  | n + 1, c :: cs => if c.utf8Size ≤ n + 1 then dropBytes (n + 1 - c.utf8Size) cs else none

/-- The first `n` bytes of a text, which make up whole characters. -/
def takeBytes : Nat → List Char → Option (List Char)
  | 0, _ => some []
  | _ + 1, [] => none
  | n + 1, c :: cs =>
    if c.utf8Size ≤ n + 1 then (takeBytes (n + 1 - c.utf8Size) cs).map (c :: ·) else none

/-- The part of a text that begins at the byte `start` and takes `length` bytes. -/
def cut (cs : List Char) (start length : Nat) : Option (List Char) :=
  (dropBytes start cs).bind (takeBytes length)

/-- The level that may follow a closing bracket, where `rest` begins at the byte `start` of `cs`. -/
def readSuffix (cs : List Char) (start : Nat) (rest : List Char) : Option (Option Level) :=
  match rest with
  | [] => some (some .trace)
  | '=' :: _ => (dropBytes (start + 1) cs).bind readThreshold
  | _ => none

/-- What follows the opening bracket of a rule, where `rest` begins at the byte `start` of `cs`: the
name of a span, a field between braces, and perhaps a level. The inner option is empty when the rule
applies to no event, because it names a span, in which no event lies, or the value of a field, which
only a span can have. -/
def readRestriction (cs : List Char) (target : String) (start : Nat) (rest : List Char) :
    Option (Option Rule) :=
  let span := rest.takeWhile fun c => c ≠ ']' && c ≠ '\x7b'
  let after := start + byteLength span + 1
  match rest.drop span.length with
  | ']' :: rest => (readSuffix cs after rest).map fun _ => none
  | '\x7b' :: rest =>
    let field := rest.takeWhile fun c => c ≠ '\x7d'
    match rest.drop field.length with
    | '\x7d' :: ']' :: rest => do
      if field.isEmpty then none
      let (name, hasValue) ← readField (← cut cs after (byteLength field))
      let finest ← readSuffix cs (after + byteLength field + 2) rest
      pure (if span.isEmpty && !hasValue then some ⟨target, some name, finest⟩ else none)
    | _ => none
  | _ => none

/-- Reads one rule. The outer option is empty when the text is no rule, the inner one when the rule
applies to no event. The parts of a rule are told apart in the text without the blanks around it, and
then cut out of the text with the blanks, byte by byte; so a blank in front of a rule shifts all of its
parts. -/
def readRule (cs : List Char) : Option (Option Rule) :=
  let word := Text.trimList cs
  let target := word.takeWhile fun c => c ≠ '=' && c ≠ '['
  let length := byteLength target
  match target, word.drop target.length with
  | [], '[' :: rest => readRestriction cs "" 1 rest
  | [], _ => none
  | c :: _, rest =>
    if !beginsTarget c then none
    else
      match rest with
      | [] =>
        match readLevel (String.ofList cs) with
        | some finest => some (some { finest })
        | none => some (some { target := String.ofList cs, finest := some .trace })
      | mark :: rest => do
        let target := String.ofList (← cut cs 0 length)
        if mark = '=' then do
          let finest ← (dropBytes (length + 1) cs).bind readThreshold
          pure (some { target, finest })
        else readRestriction cs target (length + 1) rest

/-- The pieces of a text between its commas. -/
def splitAtCommas : List Char → List (List Char)
  | [] => [[]]
  | ',' :: cs => [] :: splitAtCommas cs
  | c :: cs =>
    match splitAtCommas cs with
    | [] => [[c]]
    | piece :: pieces => (c :: piece) :: pieces

/-- Reads a filter. Empty pieces do not count. -/
def Filter.read (text : String) : Option Filter :=
  let pieces := (splitAtCommas text.toList).filter fun piece => !piece.isEmpty
  (pieces.mapM readRule).map fun rules => rules.filterMap id

/-! ## Choosing -/

/-- What the tracing variable asks for. -/
inductive Tracing where
  | off
  /-- Switched on without naming a filter. -/
  | plain
  | filter (text : String)
deriving DecidableEq, Repr

def Tracing.read (raw : String) : Tracing :=
  let value := Text.trim raw
  let word := Text.lowerCase value
  if word ∈ ["", "0", "false", "off"] then .off
  else if word ∈ ["1", "true", "on"] then .plain
  else .filter value

/-- The filter where no other one is named, or the named one cannot be read. -/
def Filter.standard : Filter :=
  [{ target := "umbra::generator", finest := some .debug },
   { target := "umbra::walk", finest := some .debug },
   { target := "umbra::frame", finest := some .debug },
   { target := "umbra::config", finest := some .debug },
   { target := "umbra_core", finest := some .info },
   { target := "umbra_cli", finest := some .info }]

/-- The filter that the environment and the settings ask for, or none when nothing is to be shown.
The tracing variable goes first; a switch without a filter leaves the choice to the settings and then
to the general variable. -/
def Filter.choose (lookup : String → Option String) (settings : Option String) : Option Filter :=
  let tracing :=
    match lookup "UMBRA_TRACE", settings with
    | some raw, _ => Tracing.read raw
    | none, some text => .filter text
    | none, none => .off
  let named :=
    match tracing with
    | .filter text => some text
    | _ => settings.or (lookup "RUST_LOG")
  if tracing = .off then none else some ((named.bind Filter.read).getD Filter.standard)

end Activation.Log
