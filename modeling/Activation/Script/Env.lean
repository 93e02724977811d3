import Activation.Script.Command
import Activation.Script.Reply

/-! # Names

A script knows things by names, one table for each sort of thing. Each name owns a handle on its
thing. A name that is used again gives up the old thing once the new one is there.
-/

namespace Activation.Script
set_option autoImplicit false

/-- A table of names, the latest first. -/
abbrev Names (α : Type) := List (String × α)

namespace Names

variable {α : Type}

def get? (t : Names α) (name : String) : Option α := t.lookup name

def erase (t : Names α) (name : String) : Names α := t.filter fun e => e.1 != name

def put (t : Names α) (name : String) (a : α) : Names α := (name, a) :: erase t name

end Names

/-- A body with the number of values sent into it so far. -/
structure BodyState where
  body : Body
  sends : Nat := 0

/-- A builder with the number of its calls so far. -/
structure BuilderState where
  code : Option Code
  spec : BuilderSpec
  calls : Nat := 0

structure Env where
  codes : Names Code := []
  types : Names TypeInfo := []
  objects : Names ObjId := []
  headers : Names Header := []
  cells : Names Int64 := []
  records : Names RecordId := []
  frames : Names FrameId := []
  generators : Names GenId := []
  /-- Frame guards, by the frame that each keeps on the stack. -/
  guards : Names FrameId := []
  /-- Lock guards of the running thread, the latest first. -/
  lockGuards : List (String × LockGuard) := []
  /-- Builders by the name of their frame. -/
  builderNames : Names BuilderId := []
  bodies : Array BodyState := #[]
  builders : Array BuilderState := #[]
  recordLabels : List (RecordId × String) := []
  frameLabels : List (FrameId × String) := []
  generatorLabels : List (GenId × String) := []
  /-- What the body of the current resumption has seen and done, the latest first. -/
  journal : List Entry := []
  /-- How many threads have been started. -/
  threads : Nat := 0
  /-- Whether the script may do what can end the program. -/
  isolated : Bool := false

abbrev State := World Env

/-! ## Labels -/

def recordLabel (w : State) (r : RecordId) : String :=
  (w.host.recordLabels.lookup r).getD ("?" ++ (w.record r).code.qualifiedName)

def frameLabel (w : State) (f : FrameId) : String :=
  (w.host.frameLabels.lookup f).getD ("?" ++ (w.frame f).code.qualifiedName)

def generatorLabel (w : State) (g : GenId) : String :=
  (w.host.generatorLabels.lookup g).getD ("?" ++ (w.frame (w.generator g).frame).code.qualifiedName)

def labelRecord (w : State) (r : RecordId) (name : String) : State :=
  w.modifyHost fun e => { e with recordLabels := (r, name) :: e.recordLabels }

def labelFrame (w : State) (f : FrameId) (name : String) : State :=
  w.modifyHost fun e => { e with frameLabels := (f, name) :: e.frameLabels }

def labelGenerator (w : State) (g : GenId) (name : String) : State :=
  w.modifyHost fun e => { e with generatorLabels := (g, name) :: e.generatorLabels }

/-! ## Descriptions -/

def payloadInfo (w : State) : Payload → PayloadInfo
  | .none => .none
  | .bool b => .bool b
  | .int n => .int n
  | .str s => .str s
  | .generator g => .generator (generatorLabel w g)

def objectInfo (w : State) (o : ObjId) : ObjectInfo :=
  let x := w.object o
  ⟨x.type.name, payloadInfo w x.payload, x.header.count.val, x.header.isImmortal⟩

def exceptionInfo (w : State) (e : Exception) : ExceptionInfo :=
  ⟨e.kind, e.message, e.display, e.value.map (objectInfo w)⟩

def headerInfo (h : Header) : HeaderInfo := ⟨h.count.val, h.isImmortal⟩

def recordInfo (w : State) (r : RecordId) : RecordInfo :=
  let x := w.record r
  ⟨recordLabel w r, x.code.qualifiedName, x.lastInstr, x.line, x.state, x.slots.length⟩

def frameInfo (w : State) (f : FrameId) : FrameInfo :=
  let x := w.frame f
  { label := frameLabel w f, owner := x.owner,
    form :=
      match x.record with
      | some r => .record (recordLabel w r)
      | none => .compact x.code.name x.ip,
    canMaterialize := x.canMaterialize, lastInstr := w.lastInstr f, line := w.line f,
    linked := x.isLinked, prev := x.prev.map (frameLabel w),
    awaiter := (w.awaiter f).map (frameLabel w) }

def generatorInfo (w : State) (g : GenId) : GeneratorInfo :=
  let x := w.generator g
  { kind := x.kind, compiled := x.isCompiled, state := w.stateOf g, yieldPoint := w.yieldPoint g,
    completed := w.isCompleted g, justStarted := w.isJustStarted g, executing := w.isExecuting g,
    runnable := w.isRunnable g, awaiter := (w.contextAwaiter g).map (generatorLabel w) }

/-! ## Making what a script writes down -/

/-- The type of truth values. -/
def boolType : TypeInfo := ⟨"bool", .none, false⟩

/-- Makes a value, or takes a new reference. A name that means nothing gives the object without a
value. -/
def makeValue (w : State) : ValueSpec → ObjId × State
  | .plain .none => (nothing, w)
  | .plain (.bool b) => w.newObject boolType (.bool b)
  | .plain (.int n) => w.newInt n
  | .plain (.str s) => w.newStr s
  | .object name =>
    match w.host.objects.get? name with
    | some o => (o, w.retain o)
    | none => (nothing, w)
  | .generator name =>
    match w.host.generators.get? name with
    | some g => (w.holdGenerator g).wrap g
    | none => (nothing, w)
  | .typed type value immortal =>
    match w.host.types.get? type with
    | some t =>
      if immortal then w.newImmortal t value.payload else w.newObject t value.payload
    | none => (nothing, w)

def makeException (w : State) (e : ExceptionSpec) : Exception × State :=
  match e.value with
  | none => (⟨e.kind, e.message, none⟩, w)
  | some v =>
    let (o, w) := makeValue w v
    (⟨e.kind, e.message, some o⟩, w)

def makeSlots (w : State) : List (Option ValueSpec) → List (Option ObjId) × State
  | [] => ([], w)
  | none :: rest =>
    let (slots, w) := makeSlots w rest
    (none :: slots, w)
  | some v :: rest =>
    let (o, w) := makeValue w v
    let (slots, w) := makeSlots w rest
    (some o :: slots, w)

def makeInjection (w : State) : InjectionSpec → Injection × State
  | .send v =>
    let (o, w) := makeValue w v
    (.send o, w)
  | .throw e =>
    let (e, w) := makeException w e
    (.throw e, w)
  | .close => (.close, w)

/-- A record with the slots, position and state that are asked for. -/
def makeRecord (w : State) (code : Code) (spec : RecordSpec) : Record × State :=
  let (slots, w) := makeSlots w spec.slots
  ({ code, slots, lastInstr := spec.lastInstr.getD (-1), state := spec.state.getD .created }, w)

/-- Runs a builder: it counts the call, and then fails or makes a record. -/
def buildRecord (b : BuilderId) (code : Code) (ip : Int) (w : State) : Except Panic Record × State :=
  match w.host.builders[b]? with
  | none => (.error (.builder ip), w)
  | some x =>
    let w := w.modifyHost fun e =>
      { e with builders := e.builders.modify b fun x => { x with calls := x.calls + 1 } }
    if x.spec.panics then (.error (.builder ip), w)
    else
      let (r, w) := makeRecord w (x.code.getD code) x.spec.record
      (.ok r, w)

/-! ## Steps -/

/-- A step changes the world and gives an answer, or ends early with another reply. -/
abbrev Step := ExceptT Reply (StateM State)

namespace Step

def fail {α : Type} (e : Failure) : Step α := throw (.failed e)

def panic {α : Type} (p : Panic) : Step α := throw (.panicked p)

/-- Goes on after a panic was ruled out. -/
def orPanic {α : Type} (r : Except Panic α) : Step α :=
  match r with
  | .ok a => pure a
  | .error p => panic p

/-- Runs a function of the world that gives a result. -/
def lift {α : Type} (f : State → α × State) : Step α := modifyGet f

/-- The thing of a name. -/
def named {α : Type} (table : Env → Names α) (name : String) : Step α := do
  match (table (← get).host).get? name with
  | some a => pure a
  | none => fail (.unknownName name)

def modifyEnv (f : Env → Env) : Step Unit := modify fun w => w.modifyHost f

/-- A frame by its own name, or as the frame of a generator. -/
def frameNamed (name : String) : Step FrameId := do
  let w ← get
  match w.host.frames.get? name with
  | some f => pure f
  | none =>
    match name.dropPrefix? "gen:" with
    | none => fail (.unknownName name)
    | some g =>
      match w.host.generators.get? g.toString with
      | some g => pure (w.generator g).frame
      | none => fail (.unknownName name)

/-- Stores an object under a name, which takes over the reference. -/
def storeObject (name : String) (o : ObjId) : Step Unit :=
  modify fun w =>
    let old := w.host.objects.get? name
    (w.modifyHost fun e => { e with objects := e.objects.put name o }).drop (old.toList.map .object)

def storeRecord (name : String) (r : RecordId) : Step Unit :=
  modify fun w =>
    let old := w.host.records.get? name
    (w.modifyHost fun e => { e with records := e.records.put name r }).drop (old.toList.map .record)

def storeFrame (name : String) (f : FrameId) : Step Unit :=
  modify fun w =>
    let old := w.host.frames.get? name
    (w.modifyHost fun e => { e with frames := e.frames.put name f }).drop (old.toList.map .frame)

def storeGenerator (name : String) (g : GenId) : Step Unit :=
  modify fun w =>
    let old := w.host.generators.get? name
    (w.modifyHost fun e => { e with generators := e.generators.put name g }).drop
      (old.toList.map .generator)

/-- Describes a reference, and then keeps it under a name or gives it back. -/
def handOver (o : ObjId) (keep : Option String) : Step ObjectInfo := do
  let info := objectInfo (← get) o
  match keep with
  | some name => storeObject name o
  | none => modify fun w => w.release o
  pure info

end Step

end Activation.Script
