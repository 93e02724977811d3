import Activation.Script.Env

/-! # Commands that walk the stack -/

namespace Activation.Script
set_option autoImplicit false

open Script.Step

/-- What the visitor of a script keeps: its visits, and the labels it saw, the latest first. -/
structure Visits where
  count : Nat := 0
  seen : List String := []

/-- A visitor that may fail or stop at a given visit; failing is decided first. -/
def visitor (w : State) (stopAfter failAfter : Option Nat) (quiet : Bool) (f : FrameId) (v : Visits) :
    Except WalkError Directive × Visits :=
  let count := v.count + 1
  let v := { count, seen := if quiet then v.seen else frameLabel w f :: v.seen : Visits }
  if failAfter = some count then (.error .outOfMemory, v)
  else if stopAfter = some count then (.ok .stop, v)
  else (.ok .onward, v)

def orWalkError {α : Type} (r : Except WalkError α) : Step α :=
  match r with
  | .ok a => pure a
  | .error e => fail (.walk e none)

def walkStart : WalkStart → Step (Option FrameId)
  | .current => do pure (← get).stack.current
  | .nowhere => pure none
  | .frame id => do pure (some (← frameNamed id))

def runWalk (host : Host Env) : WalkCommand → Step Answer
  | .maxDepth set => do
    match set with
    | none => pure ()
    | some n => modify fun w => w.setMaxDepth n
    pure (.number (← get).maxDepth)
  | .walk start stopAfter failAfter quiet => do
    let start ← walkStart start
    let w ← get
    let (result, v) := w.walkFrom start (visitor w stopAfter failAfter quiet) {}
    modify fun w => w.reportWalk result
    match result with
    | .ok visited => pure (.walked visited v.seen.reverse)
    | .error e => fail (.walk e (some v.count))
  | .snapshot detail => do
    let entries ← orWalkError (← lift fun w => w.snapshot detail)
    let w ← get
    pure (.snapshot (entries.map fun e => (e, e.record.map (recordLabel w))))
  | .callStack => do
    let codes ← orWalkError (← get).callStack
    pure (.names (codes.map Code.name))
  | .samples capacity => do
    let both ← orWalkError (← lift fun w => w.samples capacity)
    let show_ := fun (s : StackSample) => (s.code.name, s.line)
    pure (.samples (both.suspended.map show_) (both.native.map show_))
  | .findFirstArg name skip keep => do
    match ← orWalkError (← lift fun w => w.findFirstArg name skip) with
    | none => pure (.handedOver none)
    | some o => do pure (.handedOver (some (← handOver o keep)))
  | .names => do
    let entries ← orWalkError (← lift fun w => w.snapshot .names)
    pure (.names (entries.map StackEntry.qualname))
  | .lines => do
    let entries ← orWalkError (← lift fun w => w.snapshot .lines)
    pure (.lines (entries.map fun e => (e.qualname, e.line)))
  | .frames => do
    let entries ← orWalkError (← lift fun w => w.snapshot .frames)
    let w ← get
    pure (.frames (entries.map fun e => (e.qualname, e.line, e.record.map (recordLabel w))))
  | .awaiterFrame => do
    match ← orPanic (← lift fun w => w.awaiterFrame host) with
    | .ok r => do pure (.record (recordInfo (← get) r))
    | .error e => fail (.frame e)
  | .coroutineAwaiter gen => do
    let g ← named Env.generators gen
    let w ← get
    match w.coroutineAwaiter g with
    | .ok a => pure (.label (a.map (generatorLabel w)))
    | .error e => fail (.generator e)

end Activation.Script
