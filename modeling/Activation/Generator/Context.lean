import Activation.World.Objects
import Activation.World.Stack

/-! # Contexts in the world

The state of a context, whichever way it is backed, and the links between a coroutine and whoever
awaits it.
-/

namespace Activation.World
set_option autoImplicit false

variable {ε : Type}

/-! ## State -/

/-- The record of an interpreted context that has not finished. -/
def liveRecord (w : World ε) (g : GenId) : Option Record :=
  match (w.generator g).backing with
  | .compiled .. => none
  | .interpreted live => live.map w.record

def isCompleted (w : World ε) (g : GenId) : Bool :=
  match (w.generator g).backing with
  | .compiled state _ => state = .completed
  | .interpreted live => live.all fun r => (w.record r).state.isCompleted

def isJustStarted (w : World ε) (g : GenId) : Bool :=
  match (w.generator g).backing with
  | .compiled state _ => state = .justStarted
  | .interpreted live => live.any fun r => (w.record r).lastInstr = -1

def isExecuting (w : World ε) (g : GenId) : Bool :=
  match (w.generator g).backing with
  | .compiled .running yieldPoint => yieldPoint = 0
  | .compiled .throwing _ => true
  | .compiled .. => false
  | .interpreted live => live.any fun r => (w.record r).state.isExecuting

def isRunnable (w : World ε) (g : GenId) : Bool :=
  match (w.generator g).backing with
  | .compiled .justStarted _ => true
  | .compiled .running yieldPoint => yieldPoint ≠ 0
  | .compiled .. => false
  | .interpreted live => live.any fun r => (w.record r).state.isRunnable

/-- The life of a context. An interpreted one is running also while an exception is in flight. -/
def stateOf (w : World ε) (g : GenId) : GenState :=
  match (w.generator g).backing with
  | .compiled state _ => state
  | .interpreted _ =>
    if w.isCompleted g then .completed
    else if w.isJustStarted g then .justStarted
    else .running

/-- The number of the yield at which the body is suspended. -/
def yieldPoint (w : World ε) (g : GenId) : Option Nat :=
  let count :=
    match (w.generator g).backing with
    | .compiled _ yieldPoint => yieldPoint
    | .interpreted live =>
      if live.any fun r => (w.record r).state = .suspended then (w.generator g).yields else 0
  if count = 0 then none else some count

def inspectGenerator (w : World ε) (g : GenId) : String :=
  let x := w.generator g
  Text.inspectFields "GeneratorContext"
    [("kind", x.kind.inspect), ("code", Text.quoted (w.frame x.frame).code.qualifiedName),
     ("compiled", Text.inspectBool x.isCompiled), ("state", (w.stateOf g).name),
     ("yield_point", Text.inspectOption ((w.yieldPoint g).map toString))]

def inspectPayload (w : World ε) : Payload → String
  | .none => "None"
  | .bool b => "Bool(" ++ Text.inspectBool b ++ ")"
  | .int n => "Int(" ++ toString n ++ ")"
  | .str s => "Str(" ++ Text.quoted s ++ ")"
  | .generator g => "Generator(" ++ w.inspectGenerator g ++ ")"

def inspectObject (w : World ε) (o : ObjId) : String :=
  let x := w.object o
  Text.inspectFields "ManagedObject"
    [("type", Text.quoted x.type.name), ("refcnt", toString x.header.count.val),
     ("value", w.inspectPayload x.payload)]

/-! ## Making contexts -/

def addGenerator (w : World ε) (x : Generator) : GenId × World ε :=
  let w := w.emit ⟨.debug, "umbra::generator", "created generator context",
    [("kind", .text x.kind.name), ("frame", .text (w.frame x.frame).code.qualifiedName),
     ("compiled", .text (Text.inspectBool x.isCompiled))]⟩
  (w.generators.next, { w with generators := w.generators.insert x })

/-- A context for compiled code, with a compact frame. -/
def addCompiled (w : World ε) (kind : GeneratorKind) (code : Code) (builder : Option BuilderId)
    (body : BodyId) : GenId × World ε :=
  let (f, w) := w.addFrame (.compiled code builder)
  w.addGenerator { kind, frame := f, backing := .compiled .justStarted 0, body := some body }

/-- A context for interpreted code. It takes over the handle on the record, and its frame gets one
more. -/
def addInterpreted (w : World ε) (kind : GeneratorKind) (r : RecordId) (body : BodyId) :
    GenId × World ε :=
  let (f, w) := (w.holdRecord r).addInterpretedFrame r
  w.addGenerator { kind, frame := f, backing := .interpreted (some r), body := some body }

/-- Wraps a context in an object, which takes over the handle on the context. -/
def wrap (w : World ε) (g : GenId) : ObjId × World ε :=
  w.newObject (w.generator g).kind.type (.generator g)

/-! ## Awaiters -/

/-- The context that awaits this one, if it is still alive. -/
def contextAwaiter (w : World ε) (g : GenId) : Option GenId :=
  (w.generator g).awaiter.filter w.generators.contains

/-- Sets both links of a context, from its frame and from itself. -/
def linkAwaiter (w : World ε) (g : GenId) (a : Option GenId) : World ε :=
  (w.setFrameAwaiter (w.generator g).frame (a.map fun a => (w.generator a).frame)).modifyGenerator g
    fun x => { x with awaiter := a }

/-- Records, or clears, who awaits a coroutine. -/
def setAwaiter (w : World ε) (g : GenId) (a : Option GenId) : Except GeneratorError Unit × World ε :=
  if (w.generator g).kind = .coroutine then (.ok (), w.linkAwaiter g a)
  else (.error (.notACoroutine (w.generator g).kind), w)

/-- The context that awaits a coroutine. -/
def coroutineAwaiter (w : World ε) (g : GenId) : Except GeneratorError (Option GenId) :=
  if (w.generator g).kind = .coroutine then .ok (w.contextAwaiter g)
  else .error (.notACoroutine (w.generator g).kind)

end Activation.World
