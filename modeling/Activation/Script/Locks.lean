import Activation.Script.Env

/-! # Commands on the lock and on cells

A cell is read and written under the lock. Within one access a second one is possible only if both
read.
-/

namespace Activation.Script
set_option autoImplicit false

open Script.Step

/-- What an access inside another one meets. -/
def Nesting.check : Nesting → Except Panic Unit
  | .readRead => .ok ()
  | .readWrite => .error .alreadyBorrowed
  | .writeRead => .error .alreadyMutablyBorrowed
  | .writeWrite => .error .alreadyBorrowed

def storeCell (id : String) (value : Int64) : Step Answer := do
  modifyEnv fun e => { e with cells := e.cells.put id value }
  pure (.number value.toInt)

def runLock : LockCommand → Step Answer
  | .acquire id => do
    let guard ← lift World.acquireLock
    modifyEnv fun e => { e with lockGuards := (id, guard) :: e.lockGuards }
    pure (.guard guard.outermost (← get).holdsLock)
  | .release id => do
    let guards := (← get).host.lockGuards
    match guards.lookup id with
    | none => fail (.unknownName id)
    | some guard =>
      modifyEnv fun e => { e with lockGuards := guards.eraseP fun g => g.1 == id }
      modify World.releaseLock
      pure (.guard guard.outermost (← get).holdsLock)
  | .held => do
    let w ← get
    pure (.held w.holdsLock (w.lock.isHeld (w.host.threads + 1)))
  | .cell id value => storeCell id value
  | .cellAdd id by_ => do
    let value ← named Env.cells id
    storeCell id (value + by_)
  | .cellTake id => do
    let value ← named Env.cells id
    modifyEnv fun e => { e with cells := e.cells.erase id }
    pure (.number value.toInt)
  | .cellNested id nesting => do
    let _ ← named Env.cells id
    orPanic nesting.check
    pure (.flag true)
  | .cellRace id workers rounds => do
    let value ← named Env.cells id
    if (← get).holdsLock then pure .skipped
    else storeCell id (value + Int64.ofNat (workers * rounds))

end Activation.Script
