import Activation.Script.Env

/-! # Commands on records, frames and the stack -/

namespace Activation.Script
set_option autoImplicit false

open Script.Step

/-! ## Records -/

def runRecord : RecordCommand → Step Answer
  | .make id spec => do
    let code ← named Env.codes (spec.code.getD "")
    let r ← lift fun w =>
      let (x, w) := makeRecord w code spec
      w.addRecord x
    modify fun w => labelRecord w r id
    let info := recordInfo (← get) r
    storeRecord id r
    pure (.record info)
  | .info id => do
    let r ← named Env.records id
    pure (.record (recordInfo (← get) r))
  | .clear id => do
    let r ← named Env.records id
    modify fun w => w.clear r
    pure (.record (recordInfo (← get) r))
  | .setState id s => do
    let r ← named Env.records id
    modify fun w => w.setState r s
    pure (.record (recordInfo (← get) r))
  | .setLastInstr id ip => do
    let r ← named Env.records id
    modify fun w => w.setLastInstr r ip
    pure (.record (recordInfo (← get) r))
  | .setSlot id i v => do
    let r ← named Env.records id
    let o ← lift fun w => makeValue w v
    modify fun w => w.setSlot r i o
    pure (.number ((← get).record r).slots.length)
  | .slot id i keep => do
    let r ← named Env.records id
    match ← lift fun w => w.slot r i with
    | none => pure (.handedOver none)
    | some o => do pure (.handedOver (some (← handOver o keep)))
  | .drop id => do
    let r ← named Env.records id
    modifyEnv fun e => { e with records := e.records.erase id }
    modify fun w => w.drop [.record r]
    pure .done

/-! ## Frames -/

/-- Registers a builder under the name of its frame. -/
def addBuilder (name : String) (spec : Option BuilderSpec) : Step (Option BuilderId) := do
  match spec with
  | none => pure none
  | some spec =>
    let code ← match spec.record.code with
      | none => pure none
      | some c => do pure (some (← named Env.codes c))
    let b := (← get).host.builders.size
    modifyEnv fun e =>
      { e with builders := e.builders.push { code, spec }, builderNames := e.builderNames.put name b }
    pure (some b)

def keepFrame (id : String) (f : FrameId) : Step Answer := do
  modify fun w => labelFrame w f id
  let info := frameInfo (← get) f
  storeFrame id f
  pure (.frame info)

def runFrame (host : Host Env) : FrameCommand → Step Answer
  | .interpreted id record => do
    let r ← named Env.records record
    let f ← lift fun w => (w.holdRecord r).addInterpretedFrame r
    keepFrame id f
  | .compiled id code spec => do
    let code ← named Env.codes code
    let builder ← addBuilder id spec
    let f ← lift fun w => w.addFrame (.compiled code builder)
    keepFrame id f
  | .info id => do
    let f ← frameNamed id
    pure (.frame (frameInfo (← get) f))
  | .setIp id ip => do
    let f ← frameNamed id
    modify fun w => w.setIp f ip
    let w ← get
    pure (.position (w.lastInstr f) (w.line f))
  | .linkAwaiter id awaiter => do
    let f ← frameNamed id
    let a ← match awaiter with
      | none => pure none
      | some a => do pure (some (← frameNamed a))
    modify fun w => w.setFrameAwaiter f a
    let w ← get
    pure (.label ((w.awaiter f).map (frameLabel w)))
  | .materialize id keep => do
    let f ← frameNamed id
    match ← orPanic (← lift fun w => w.materialize host f) with
    | .error e => fail (.frame e)
    | .ok r =>
      let w ← get
      let answer := Answer.materialized (recordInfo w r) (w.frame f).isMaterialized
      match keep with
      | none => pure ()
      | some name =>
        modify fun w => labelRecord (w.holdRecord r) r name
        storeRecord name r
      pure answer
  | .builderCalls id => do
    let w ← get
    let b := w.host.builderNames.get? id
    pure (.calls ((b.bind fun b => w.host.builders[b]?).map BuilderState.calls))
  | .bindRecord id record => do
    let f ← frameNamed id
    let r ← named Env.records record
    pure (.flag (← lift fun w => (w.holdRecord r).bindRecord f r))
  | .resolve id => do
    let f ← frameNamed id
    let w ← get
    let resolved := w.resolve f
    pure (.resolved resolved.code.name resolved.qualifiedName (resolved.record.map (recordLabel w)))
  | .next id => do
    let f ← frameNamed id
    let w ← get
    pure (.label ((w.nextFrame f).map (frameLabel w)))
  | .drop id => do
    let f ← named Env.frames id
    modifyEnv fun e => { e with frames := e.frames.erase id }
    modify fun w => w.drop [.frame f]
    pure .done

/-! ## The stack -/

def top (w : State) : Answer := .top (w.stack.current.map (frameLabel w)) w.stack.depth

/-- Pushes `n` frames that have no names. -/
def pushMany (w : State) (code : Code) : Nat → Except Panic State
  | 0 => .ok w
  | n + 1 => do
    let (f, w) := w.addFrame (.compiled code none)
    let w ← w.push f
    pushMany (w.drop [.frame f]) code n

/-- Pops and drops frames until `n` are gone, none is left, or a panic unwinds; counts them. -/
def popMany (w : State) : Nat → Nat × State
  | 0 => (0, w)
  | n + 1 =>
    match w.pop with
    | (none, w) => (0, w)
    | (some f, w) =>
      let w := w.drop [.frame f]
      if w.isUnwinding then (1, w)
      else
        let (count, w) := popMany w n
        (count + 1, w)

/-- Drops the guard of a frame. -/
def leaveGuard (f : FrameId) : Step Unit := modify fun w => w.leave f

def runStack (host : Host Env) : StackCommand → Step Answer
  | .push id => do
    let f ← frameNamed id
    let w ← orPanic ((← get).push f)
    set w
    pure (.number w.stack.depth)
  | .pushMany code n => do
    let code ← named Env.codes code
    let w ← orPanic (pushMany (← get) code n)
    set w
    pure (.number w.stack.depth)
  | .pop => do
    match ← lift fun w => w.pop with
    | none => do pure (.top none (← get).stack.depth)
    | some f =>
      let label := frameLabel (← get) f
      modify fun w => w.drop [.frame f]
      pure (.top (some label) (← get).stack.depth)
  | .popMany n => do
    let count ← lift fun w => popMany w n
    pure (.popped count (← get).stack.depth)
  | .enter id guard => do
    let f ← frameNamed id
    let w ← orPanic ((← get).enter f)
    set w
    let answer := Answer.top (some (frameLabel w f)) w.stack.depth
    let old := w.host.guards.get? guard
    modifyEnv fun e => { e with guards := e.guards.put guard f }
    match old with
    | none => pure ()
    | some old => leaveGuard old
    pure answer
  | .leave guard => do
    let f ← named Env.guards guard
    modifyEnv fun e => { e with guards := e.guards.erase guard }
    leaveGuard f
    pure (.number (← get).stack.depth)
  | .current => do pure (top (← get))
  | .verify limit => do
    match (← get).verifyChain limit with
    | .ok depth => pure (.number depth)
    | .error e => fail (.frame e)
  | .materializeAll => do
    if (← get).isEndless then pure .skipped
    else
      match ← orPanic (← lift fun w => w.materializeAll host) with
      | .error e => fail (.frame e)
      | .ok rs => do
        let w ← get
        pure (.records (rs.map (recordInfo w)))
  | .dump => do
    if (← get).isEndless then pure .skipped
    else
      modify fun w => w.dump
      pure .done

end Activation.Script
