import Activation.Frame

/-! # Generators

A generator is the context of a body that can be suspended. Compiled bodies keep their state beside
the context; the state of an interpreted body is read off its record while it is live.
-/

namespace Activation
set_option autoImplicit false

/-- Names the body that a context runs. -/
abbrev BodyId := Nat

inductive GeneratorKind where
  | generator
  | coroutine
  | asyncGenerator
deriving DecidableEq, Repr

namespace GeneratorKind

def name : GeneratorKind → String
  | .generator => "generator"
  | .coroutine => "coroutine"
  | .asyncGenerator => "async_generator"

def inspect : GeneratorKind → String
  | .generator => "Generator"
  | .coroutine => "Coroutine"
  | .asyncGenerator => "AsyncGenerator"

/-- The type of the objects that wrap a context. -/
def type : GeneratorKind → TypeInfo
  | .generator => .generator
  | .coroutine => .coroutine
  | .asyncGenerator => .asyncGenerator

end GeneratorKind

/-- The life of a context. `running` covers both executing and suspended. -/
inductive GenState where
  | justStarted
  | running
  | completed
  | throwing
deriving DecidableEq, Repr

def GenState.name : GenState → String
  | .justStarted => "JustStarted"
  | .running => "Running"
  | .completed => "Completed"
  | .throwing => "Throwing"

/-- Where a context keeps its state. -/
inductive Backing where
  /-- The state, and the number of the yield at which the body is suspended, zero for none. -/
  | compiled (state : GenState) (yieldPoint : Nat)
  /-- The record of the body, until the body has finished. -/
  | interpreted (live : Option RecordId)
deriving DecidableEq

structure Generator where
  kind : GeneratorKind
  frame : FrameId
  backing : Backing
  /-- The body, except while it runs. -/
  body : Option BodyId
  /-- How often the body has yielded. -/
  yields : Nat := 0
  awaiter : Option GenId := none
  /-- The number of handles on the context. -/
  owners : Nat := 1

def Generator.isCompiled (g : Generator) : Bool :=
  match g.backing with
  | .compiled .. => true
  | .interpreted _ => false

/-- Why a context refuses a request. -/
inductive GeneratorError where
  | alreadyExecuting (kind : GeneratorKind)
  | exhausted (kind : GeneratorKind)
  | nonNoneToJustStarted (kind : GeneratorKind)
  | notACoroutine (kind : GeneratorKind)
deriving DecidableEq, Repr

namespace GeneratorError

def message : GeneratorError → String
  | .alreadyExecuting kind => kind.name ++ " already executing"
  | .exhausted .coroutine => "cannot reuse already awaited coroutine"
  | .exhausted kind => kind.name ++ " already exhausted"
  | .nonNoneToJustStarted kind => "can't send non-None value to a just-started " ++ kind.name
  | .notACoroutine kind => "awaiter links require a coroutine, got " ++ kind.name

end GeneratorError

end Activation
