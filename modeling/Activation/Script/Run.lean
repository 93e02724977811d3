import Activation.Script.Frames
import Activation.Script.Locks
import Activation.Script.Objects
import Activation.Script.Walks

/-! # Running a script

Commands run one after another, each to its own reply. Bodies of generators run commands too, and so
do threads; how deep commands nest is bounded by `nestingLimit`.

* `perform`: one command.
* `stepBody`: one run of a scripted body.
* `run`: a whole script.
-/

namespace Activation.Script
set_option autoImplicit false

open Script.Step

/-- Performs a command, possibly from inside the body of a context. -/
abbrev Performer := Option GenId → Command → State → Reply × State

/-! ## Bodies -/

def note (w : State) (entry : Entry) : State :=
  w.modifyHost fun e => { e with journal := entry :: e.journal }

/-- Performs the commands of a segment, noting the reply of each. -/
def runCommands (perform : Performer) (g : GenId) (w : State) : List Command → State
  | [] => w
  | c :: rest =>
    let (reply, w) := perform (some g) c w
    runCommands perform g (note w (.step reply)) rest

/-- Ends a segment whose ending is known by giving the input back. A panic on the way takes the place
of the ending, whose value is lost. -/
def endWith (w : State) (input : Input) (ending : Ending) : Ending × State :=
  match (w.drop input.held).catchPanic with
  | (some p, w) => (.panics p, w)
  | (none, w) => (ending, w)

/-- Ends a segment. The input is kept until the end is known, and then given back. -/
def finish (w : State) (input : Input) : Finish → Ending × State
  | .yields v =>
    let (o, w) := makeValue w v
    endWith w input (.yields o)
  | .returns v =>
    let (o, w) := makeValue w v
    endWith w input (.returns o)
  | .raises e =>
    let (e, w) := makeException w e
    endWith w input (.raises e)
  | .panics text => (.panics (.body text), w.drop input.held)
  | .echo returning =>
    match input with
    | .sent o => (if returning then .returns o else .yields o, w)
    | .thrown e => (.raises e, w)

/-- The segment for an input, and the world in which a sent value has been counted. -/
def selectSegment (w : State) (b : BodyId) (input : Input) : Option Segment × State :=
  match w.host.bodies[b]? with
  | none => (none, w)
  | some x =>
    match input with
    | .sent _ =>
      (x.body.forSend x.sends, w.modifyHost fun e =>
        { e with bodies := e.bodies.modify b fun x => { x with sends := x.sends + 1 } })
    | .thrown e => (x.body.forThrow e.kind, w)

/-- One run of a scripted body. Without a segment a sent value ends the body and an exception passes
through it. -/
def stepBody (perform : Performer) (b : BodyId) (g : GenId) (input : Input) (w : State) :
    Ending × State :=
  let w :=
    match input with
    | .sent o => note w (.sent (objectInfo w o))
    | .thrown e => note w (.thrown (exceptionInfo w e))
  match selectSegment w b input with
  | (some (.mk run end_), w) => finish (runCommands perform g w run) input end_
  | (none, w) =>
    match input with
    | .sent _ => endWith w input (.returns nothing)
    | .thrown e => (.raises e, w)

def hostOf (perform : Performer) : Host Env := { step := stepBody perform, build := buildRecord }

/-! ## Generators -/

def addBody (body : Body) : Step BodyId := do
  let b := (← get).host.bodies.size
  modifyEnv fun e => { e with bodies := e.bodies.push { body } }
  pure b

def keepGenerator (id : String) (g : GenId) : Step Answer := do
  modify fun w => labelFrame (labelGenerator w g id) (w.generator g).frame ("gen:" ++ id)
  let info := generatorInfo (← get) g
  storeGenerator id g
  pure (.generator info)

/-- Describes how a resumption ended, and keeps or gives back what it handed over. -/
def describeResumption (r : Resumption) (keep : Option String) : Step ResumptionInfo := do
  match r with
  | .done (.yielded o) => do pure (.yielded (← handOver o keep))
  | .done (.returned o) => do pure (.returned (← handOver o keep))
  | .done (.raised e) =>
    let info := exceptionInfo (← get) e
    modify fun w => w.drop e.held
    pure (.raised info e.inspect)
  | .refused e => pure (.refused e)
  | .panicked p => pure (.panicked p)

/-- Resumes a context under the lock, with a journal of its own. -/
def resumeNamed (host : Host Env) (gen : String) (injection : InjectionSpec)
    (external : Option String) (keep : Option String) : Step Reply := do
  let g ← named Env.generators gen
  let r ← match external with
    | none => pure none
    | some name => do pure (some (← named Env.records name))
  let outer := (← get).host.journal
  modifyEnv fun e => { e with journal := [] }
  modify fun w => (w.holdGenerator g).acquireLock.2
  match r with
  | none => pure ()
  | some r => modify fun w => w.holdRecord r
  let inj ← lift fun w => makeInjection w injection
  let result ← lift fun w => w.resume host g inj r
  let info ← describeResumption result keep
  let w ← get
  let reply := Reply.resumed info w.host.journal.reverse (generatorInfo w g) w.stack.depth
  modifyEnv fun e => { e with journal := outer }
  modify fun w => w.releaseLock.drop [.generator g]
  pure reply

/-- What a running body asks of its own context. -/
def askSelf (host : Host Env) (g : GenId) (ip : Option Int) (awaiting : Option String)
    (wantsRecord : Bool) : Step Answer := do
  let f := ((← get).generator g).frame
  match ip with
  | none => pure ()
  | some ip => modify fun w => w.setIp f ip
  let awaited ← match awaiting with
    | none => pure none
    | some name => do
      let callee ← named Env.generators name
      pure (some (← lift fun w => w.setAwaiter callee (some g)))
  let r ← if wantsRecord then
      match ← orPanic (← lift fun w => w.materialize host f) with
      | .ok r => pure (some r)
      | .error _ => pure none
    else pure none
  let w ← get
  pure (.self
    { kind := (w.generator g).kind, frame := frameLabel w f, lastInstr := w.lastInstr f,
      awaiting := awaited, record := r.map (recordInfo w), held := w.holdsLock })

/-! ## Threads -/

def runAll (perform : Performer) (w : State) : List Command → List Reply × State
  | [] => ([], w)
  | c :: rest =>
    let (reply, w) := perform none c w
    let (replies, w) := runAll perform w rest
    (reply :: replies, w)

/-- Gives up every lock guard of the running thread. -/
def releaseGuards (w : State) : State :=
  w.host.lockGuards.foldl (fun w _ => w.releaseLock) w

/-- Lets go of the stack of a thread that has ended, without unlinking the frames. Nobody is left to
catch a panic. -/
def abandonStack (w : State) : State :=
  let current := w.stack.current.toList.map Handle.frame
  match ((w.setStack {}).drop current).catchPanic with
  | (some _, w) => { w with fault := some .uncaught }
  | (none, w) => w

/-- Runs steps on a thread of their own. At its end the thread lets go of its lock guards and of its
stack. -/
def runThread (perform : Performer) (steps : List Command) (w : State) : Answer × State :=
  if w.holdsLock then (.skipped, w)
  else
    let stack := w.stack
    let thread := w.thread
    let guards := w.host.lockGuards
    let fresh := w.host.threads + 1
    let w := { w with stack := {}, thread := fresh }.modifyHost fun e =>
      { e with lockGuards := [], threads := fresh }
    let (replies, w) := runAll perform w steps
    let w := abandonStack (releaseGuards w)
    (.thread replies,
      { w with stack := stack, thread := thread }.modifyHost fun e => { e with lockGuards := guards })

/-! ## Commands -/

def inspect (w : State) : Subject → String → Step Answer
  | .object, id => do pure (.text (w.inspectObject (← named Env.objects id)))
  | .record, id => do pure (.text (w.record (← named Env.records id)).inspect)
  | .frame, id => do pure (.text (w.inspectFrame (← frameNamed id)))
  | .generator, id => do pure (.text (w.inspectGenerator (← named Env.generators id)))
  | .code, id => do pure (.text (← named Env.codes id).inspect)
  | .type, id => do pure (.text (← named Env.types id).inspect)

/-- One command; `perform` is for the commands inside it. -/
def step (perform : Performer) (self : Option GenId) : Command → Step Reply
  | .object c => return .ok (← runObject c)
  | .header c => return .ok (← runHeader c)
  | .record c => return .ok (← runRecord c)
  | .frame c => return .ok (← runFrame (hostOf perform) c)
  | .stack c => return .ok (← runStack (hostOf perform) c)
  | .walk c => return .ok (← runWalk (hostOf perform) c)
  | .lock c => return .ok (← runLock c)
  | .inspect what id => do return .ok (← inspect (← get) what id)
  | .interpretedGenerator id kind record body => do
    let r ← named Env.records record
    let b ← addBody body
    let g ← lift fun w => (w.holdRecord r).addInterpreted kind r b
    return .ok (← keepGenerator id g)
  | .compiledGenerator id kind code spec body => do
    let code ← named Env.codes code
    let builder ← addBuilder ("gen:" ++ id) spec
    let b ← addBody body
    let g ← lift fun w => w.addCompiled kind code builder b
    return .ok (← keepGenerator id g)
  | .generatorInfo gen => do
    let g ← named Env.generators gen
    return .ok (.generator (generatorInfo (← get) g))
  | .dropGenerator gen => do
    let g ← named Env.generators gen
    modifyEnv fun e => { e with generators := e.generators.erase gen }
    modify fun w => w.drop [.generator g]
    return .ok .done
  | .setAwaiter gen awaiter => do
    let g ← named Env.generators gen
    let a ← match awaiter with
      | none => pure none
      | some a => do pure (some (← named Env.generators a))
    match ← lift fun w => w.setAwaiter g a with
    | .error e => fail (.generator e)
    | .ok () => do
      let w ← get
      return .ok (.awaiters ((w.contextAwaiter g).map (generatorLabel w))
        ((w.awaiter (w.generator g).frame).map (frameLabel w)))
  | .resume gen injection external keep => resumeNamed (hostOf perform) gen injection external keep
  | .self ip awaiting wantsRecord => do
    match self with
    | none => fail (.unknownName "cx")
    | some g => return .ok (← askSelf (hostOf perform) g ip awaiting wantsRecord)
  | .thread steps => return .ok (← lift (runThread perform steps))

/-- A command that leaves a panic unwinding replies with the panic. -/
def caught (reply : Reply) (w : State) : Reply × State :=
  match w.catchPanic with
  | (some p, w) => (.panicked p, w)
  | (none, w) => (reply, w)

/-- Performs a command, in which commands may nest `n` deep. -/
def perform : Nat → Performer
  | 0, _, _, w => (.failed .nestedTooDeep, w)
  | n + 1, self, c, w =>
    match (step (perform n) self c).run w with
    | (.ok reply, w) => caught reply w
    | (.error reply, w) => caught reply w

/-- Bodies within bodies deeper than this are not run. -/
def nestingLimit : Nat := 1000

/-! ## Scripts -/

/-- Runs the steps up to the end, or to the step that ends the program. -/
def runSteps (w : State) : List Command → List StepResult
  | [] => []
  | c :: rest =>
    let (reply, w) := perform nestingLimit none c { w with events := #[], deaths := #[] }
    match w.fault.bind Fault.farewell with
    | some text => [.aborted text]
    | none => .replied reply w.deaths.toList w.events.toList :: runSteps w rest

/-- Runs a script from an empty world. An isolated script may end its program. -/
def run (isolated : Bool) (script : List Command) : List StepResult :=
  runSteps { host := { isolated } } script

end Activation.Script
