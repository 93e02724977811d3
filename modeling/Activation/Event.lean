/-! # Events

What the library reports about itself while it works: a level, the part that speaks, a message and
named fields.
-/

namespace Activation
set_option autoImplicit false

/-- How detailed an event is, from the gravest to the finest. -/
inductive Level where
  | error
  | warn
  | info
  | debug
  | trace
deriving DecidableEq, Repr

namespace Level

def name : Level → String
  | .error => "ERROR"
  | .warn => "WARN"
  | .info => "INFO"
  | .debug => "DEBUG"
  | .trace => "TRACE"

/-- Finer levels have larger ranks. -/
def rank : Level → Nat
  | .error => 1
  | .warn => 2
  | .info => 3
  | .debug => 4
  | .trace => 5

end Level

/-- The value of a field. The address of a thing is not part of the model, so it has no text. -/
inductive FieldValue where
  | text (value : String)
  | address
deriving DecidableEq, Repr

structure Event where
  level : Level
  target : String
  message : String
  fields : List (String × FieldValue)
deriving DecidableEq, Repr

namespace Event

/-- The fields that have a text, in order. -/
def texts (e : Event) : List (String × String) :=
  e.fields.filterMap fun f =>
    match f.2 with
    | .text value => some (f.1, value)
    | .address => none

/-- An event as a line of a log; an address is shown as a star. -/
def render (e : Event) : String :=
  let shown := e.fields.map fun f =>
    match f.2 with
    | .text value => " " ++ f.1 ++ "=" ++ value
    | .address => " " ++ f.1 ++ "=*"
  e.level.name ++ " " ++ e.target ++ ": " ++ e.message ++ String.join shown

end Event

end Activation
