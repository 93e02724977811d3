import Activation.Generator.Context

/-! # Resuming a context

One resumption puts a value, an exception or a request to close into a suspended body, runs the body
with its frame on the stack, and settles the context by the way the body ended.

* `World.begin`, `World.suspend`, `World.complete`: the changes of state.
* `World.verdict`: whether a request is refused, answered at once, or handed to the body.
* `World.receive`: a request up to the first instruction of the body.
* `World.conclude`: the rest of the request, once the body has given control back.
* `World.resume`: the whole request.
-/

namespace Activation
set_option autoImplicit false

/-- What a caller gets from a body. -/
inductive Outcome where
  | yielded (o : ObjId)
  | returned (o : ObjId)
  | raised (e : Exception)
deriving DecidableEq

def Outcome.isYield : Outcome → Bool
  | .yielded _ => true
  | _ => false

/-- How a request to resume ends. -/
inductive Resumption where
  | done (o : Outcome)
  | refused (e : GeneratorError)
  | panicked (p : Panic)
deriving DecidableEq

/-- The references that a resumption hands to its caller. -/
def Resumption.held : Resumption → List Handle
  | .done (.yielded o) => [.object o]
  | .done (.returned o) => [.object o]
  | .done (.raised e) => e.held
  | .refused _ => []
  | .panicked _ => []

/-- A run of a body that is under way. -/
structure Turn where
  context : GenId
  frame : FrameId
  body : BodyId
  /-- Whether the body was asked to close. -/
  closing : Bool
deriving DecidableEq, Repr

/-- What is to be done about a request. -/
inductive Verdict where
  | refuse (e : GeneratorError)
  /-- A finished context has nothing to close. -/
  | ignore
  /-- A context that has not begun is closed at once. -/
  | finish
  | enter (body : BodyId)

/-- What becomes of a request before the body has a say. -/
inductive Admission (ε : Type) where
  | answered (result : Resumption) (w : World ε)
  /-- The body is about to run, with its frame on the stack. -/
  | entered (turn : Turn) (w : World ε)

namespace World

variable {ε : Type}

/-! ## Changes of state -/

/-- The body starts or goes on. -/
def begin (w : World ε) (g : GenId) (throwing : Bool) : World ε :=
  let x := w.generator g
  let w := if w.lastInstr x.frame < 0 then w.setIp x.frame 0 else w
  let w :=
    match x.backing with
    | .compiled .. =>
      w.modifyGenerator g fun x =>
        { x with backing := .compiled (if throwing then .throwing else .running) 0 }
    | .interpreted (some r) => w.setState r .executing
    | .interpreted none => w
  w.emit ⟨.debug, "umbra::generator", "generator running",
    [("kind", .text x.kind.name), ("throwing", .text (Text.inspectBool throwing))]⟩

/-- The body has yielded once more. -/
def suspend (w : World ε) (g : GenId) : World ε :=
  let x := w.generator g
  let count := x.yields + 1
  let w := w.modifyGenerator g fun x => { x with yields := count }
  let w :=
    match x.backing with
    | .compiled .. => w.modifyGenerator g fun x => { x with backing := .compiled .running count }
    | .interpreted (some r) => w.setState r .suspended
    | .interpreted none => w
  w.emit ⟨.debug, "umbra::generator", "generator suspended",
    [("kind", .text x.kind.name), ("yield_point", .text (toString count))]⟩

/-- An interpreted context clears its record, marks how it ended, and lets it go. -/
def retire (w : World ε) (g : GenId) (r : RecordId) (final : RecordState) : World ε :=
  let w := (w.modifyGenerator g fun x => { x with backing := .interpreted none }).clear r
  (if w.isUnwinding then w else w.setState r final).drop [.record r]

/-- A context takes on the state it keeps for good. -/
def vacate (w : World ε) (g : GenId) (final : RecordState) : World ε :=
  match (w.generator g).backing with
  | .compiled .. => w.modifyGenerator g fun x => { x with backing := .compiled .completed 0 }
  | .interpreted none => w
  | .interpreted (some r) => w.retire g r final

/-- The body has finished: its record is retired, and a coroutine is no longer awaited. If clearing the
record panics, the context has finished all the same, but is still awaited. -/
def complete (w : World ε) (g : GenId) (final : RecordState) : World ε :=
  let x := w.generator g
  let w := w.vacate g final
  if w.isUnwinding then w
  else
    let w := if x.kind = .coroutine then w.linkAwaiter g none else w
    w.emit ⟨.debug, "umbra::generator", "generator completed",
      [("kind", .text x.kind.name), ("state", .text final.name)]⟩

/-- A body that panics leaves its context completed, as if it had raised. -/
def abandon (w : World ε) (g : GenId) : World ε :=
  (w.emit ⟨.warn, "umbra::generator", "generator body panicked",
    [("kind", .text (w.generator g).kind.name)]⟩).cleanUp fun w => w.complete g .raised

/-! ## Running the body -/

/-- What the caller sees of an ending. A body asked to close may not yield and its value is not handed
on; a stop signal that escapes a body is an error of the body. What is not handed on is given back, and
so is everything if the completion panics. -/
def settle (w : World ε) (g : GenId) (closing : Bool) : Ending → Resumption × World ε
  | .yields o =>
    let w := w.suspend g
    if closing then
      (.done (.raised (.runtimeError ((w.generator g).kind.name ++ " ignored GeneratorExit"))),
        w.release o)
    else (.done (.yielded o), w)
  | .returns o =>
    let w := w.complete g .returned
    if closing || w.isUnwinding then (.done (.returned nothing), w.release o)
    else (.done (.returned o), w)
  | .raises e =>
    let w := w.complete g .raised
    if w.isUnwinding || closing && (e.kind = .stopIteration || e.kind = .generatorExit) then
      (.done (.returned nothing), w.drop e.held)
    else if e.kind = .stopIteration then
      (.done (.raised (.runtimeError ((w.generator g).kind.name ++ " raised StopIteration"))),
        w.drop e.held)
    else (.done (.raised e), w)
  | .panics p => (.panicked p, (w.panic p).abandon g)

/-- Whether a value is sent that a body cannot take before its first step. -/
def sendsValue (w : World ε) : Injection → Bool
  | .send o => !(w.object o).isNone
  | _ => false

/-- Puts the frame of a context on the stack for its body. A frame that cannot be pushed makes the
request panic, which finishes the context. -/
def startTurn (w : World ε) (g : GenId) (body : BodyId) (inj : Injection) : Admission ε :=
  let f := (w.generator g).frame
  match w.enter f with
  | .error p => .answered (.panicked p) (((w.panic p).abandon g).drop inj.held)
  | .ok w => .entered ⟨g, f, body, inj.isClosing⟩ w

/-- What the state of a context says to a request. -/
def verdict (w : World ε) (g : GenId) (inj : Injection) : Verdict :=
  let x := w.generator g
  if w.isExecuting g then .refuse (.alreadyExecuting x.kind)
  else if w.isCompleted g then if inj.isClosing then .ignore else .refuse (.exhausted x.kind)
  else if w.isJustStarted g && w.sendsValue inj then .refuse (.nonNoneToJustStarted x.kind)
  else if w.isJustStarted g && inj.isClosing then .finish
  else
    match x.body with
    | none => .refuse (.alreadyExecuting x.kind)
    | some body => .enter body

/-- Takes the body out of a context for a turn, and binds the external record to its frame. -/
def takeBody (w : World ε) (g : GenId) (external : Option RecordId) : World ε :=
  let w := w.modifyGenerator g fun x => { x with body := none }
  match external with
  | none => w
  | some r => (w.bindRecord (w.generator g).frame r).2

/-- The request up to the point where the body takes over: refusals, requests that need no body, the
binding of the external record, and the frame on the stack. A refusal gives back what the request
brought along. -/
def receive (w : World ε) (g : GenId) (inj : Injection) (external : Option RecordId) : Admission ε :=
  let offered := external.toList.map Handle.record
  match w.verdict g inj with
  | .refuse (.nonNoneToJustStarted kind) =>
    .answered (.refused (.nonNoneToJustStarted kind)) (w.drop (inj.held ++ offered))
  | .refuse e => .answered (.refused e) (w.drop (offered ++ inj.held))
  | .ignore => .answered (.done (.returned nothing)) (w.drop offered)
  | .finish => .answered (.done (.returned nothing)) ((w.complete g .cleared).drop offered)
  | .enter body =>
    let w := w.takeBody g external
    if w.isUnwinding then .answered (.panicked .countOverflow) (w.drop inj.held)
    else (w.begin g inj.isThrowing).startTurn g body inj

/-- The request from the point where the body gives control back: the frame comes off the stack and the
context is settled. A body that leaves another frame on top makes the guard of its frame panic; the
context then still counts as executing, and its body is lost. -/
def conclude (w : World ε) (t : Turn) : Ending → Resumption × World ε
  | .panics p => (.panicked p, ((w.panic p).leave t.frame).abandon t.context)
  | ending =>
    let w := w.leave t.frame
    if w.isUnwinding then (.panicked .unbalancedPop, w)
    else
      (w.modifyGenerator t.context fun x => { x with body := some t.body }).settle t.context t.closing
        ending

/-- Resumes a context, except that a panic may still be unwinding at the end. -/
def attempt (host : Host ε) (w : World ε) (g : GenId) (inj : Injection) (external : Option RecordId) :
    Resumption × World ε :=
  match w.receive g inj external with
  | .answered result w => (result, w)
  | .entered turn w =>
    let (ending, w) := host.step turn.body g inj.input w
    w.conclude turn ending

/-- A panic that is still unwinding is the result of the request. -/
def settlePanic (result : Resumption) (w : World ε) : Resumption × World ε :=
  match w.catchPanic with
  | (some p, w) => (.panicked p, w)
  | (none, w) => (result, w)

/-- Resumes a context. The references of the injection and the handle on the external record belong to
the request. The external record is bound to a frame that has none. A panic ends the request, wherever
it arose. -/
def resume (host : Host ε) (w : World ε) (g : GenId) (inj : Injection) (external : Option RecordId) :
    Resumption × World ε :=
  let (result, w) := w.attempt host g inj external
  settlePanic result w

end World

end Activation
