import Activation.Object

/-! # Exceptions

Exceptions of the running language: values that a body raises and a caller throws into a body.
-/

namespace Activation
set_option autoImplicit false

inductive ExceptionKind where
  | stopIteration
  | stopAsyncIteration
  | generatorExit
  | runtimeError
  | typeError
  | valueError
  | other (name : String)
deriving DecidableEq, Repr

namespace ExceptionKind

def name : ExceptionKind → String
  | .stopIteration => "StopIteration"
  | .stopAsyncIteration => "StopAsyncIteration"
  | .generatorExit => "GeneratorExit"
  | .runtimeError => "RuntimeError"
  | .typeError => "TypeError"
  | .valueError => "ValueError"
  | .other name => name

/-- The known kinds. -/
def known : List ExceptionKind :=
  [.stopIteration, .stopAsyncIteration, .generatorExit, .runtimeError, .typeError, .valueError]

/-- The known kind of that name, or else a kind of its own. -/
def ofName (name : String) : ExceptionKind :=
  (known.find? fun k => k.name == name).getD (.other name)

def isOther : ExceptionKind → Bool
  | .other _ => true
  | _ => false

def inspect : ExceptionKind → String
  | .other name => "Other(" ++ Text.quoted name ++ ")"
  | kind => kind.name

end ExceptionKind

structure Exception where
  kind : ExceptionKind
  message : String
  /-- The value that travels along; it owns one reference. -/
  value : Option ObjId := none
deriving DecidableEq

namespace Exception

def generatorExit : Exception := ⟨.generatorExit, "", none⟩

def runtimeError (message : String) : Exception := ⟨.runtimeError, message, none⟩

def display (e : Exception) : String :=
  if e.message.isEmpty then e.kind.name else e.kind.name ++ ": " ++ e.message

def inspect (e : Exception) : String :=
  Text.inspectFields "Exception"
    [("kind", e.kind.inspect), ("message", Text.quoted e.message),
     ("has_value", Text.inspectBool e.value.isSome)]

end Exception

end Activation
