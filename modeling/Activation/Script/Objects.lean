import Activation.Script.Env

/-! # Commands on objects and headers -/

namespace Activation.Script
set_option autoImplicit false

open Script.Step

def storeHeader (name : String) (h : Header) : Step Answer := do
  modifyEnv fun e => { e with headers := e.headers.put name h }
  pure (.header (headerInfo h))

/-- Retains a bare header `n` times. -/
def retainHeader (w : State) (h : Header) : Nat → Header × State
  | 0 => (h, w)
  | n + 1 =>
    match h.retain with
    | none => (h, w)
    | some next => retainHeader (w.noteRetain next) next n

/-- Releases a bare header: the header, the numbers of the releases that found it dead, and whether a
release overflowed. -/
structure HeaderRun where
  header : Header
  dead : List Nat
  overflowed : Bool

def releaseHeader (w : State) (h : Header) (i : Nat) (dead : List Nat) : Nat → HeaderRun × State
  | 0 => (⟨h, dead.reverse, false⟩, w)
  | n + 1 =>
    match h.release with
    | .skipped => (⟨h, dead.reverse, false⟩, w)
    | .overflow => (⟨h, dead.reverse, true⟩, w)
    | .negative next => (⟨next, dead.reverse, false⟩, (w.noteRelease next).sink next.count.val)
    | .stored next .alive => releaseHeader (w.noteRelease next) next (i + 1) dead n
    | .stored next .dead => releaseHeader (w.noteRelease next) next (i + 1) (i :: dead) n

def runHeader : HeaderCommand → Step Answer
  | .make id h => storeHeader id h
  | .retain id n => do
    let h ← named Env.headers id
    let h ← lift fun w => retainHeader w h n
    storeHeader id h
  | .release id n => do
    let h ← named Env.headers id
    let run ← lift fun w => releaseHeader w h 0 [] n
    let _ ← storeHeader id run.header
    if run.overflowed then panic .countOverflow
    pure (.headerReleased (headerInfo run.header) run.dead)
  | .markImmortal id n => do
    let h ← named Env.headers id
    storeHeader id (if n = 0 then h else .immortal)
  | .setCount id count n => do
    let h ← named Env.headers id
    storeHeader id (if n = 0 then h else h.setCount count)

/-- Takes a name away and gives its reference back. -/
def dropObject (id : String) : Step Answer := do
  let o ← named Env.objects id
  modifyEnv fun e => { e with objects := e.objects.erase id }
  modify fun w => w.release o
  pure .done

/-- One bare release of an object's header: neither a destructor runs nor is anything freed. -/
def releaseObjectHeader (o : ObjId) : Step Answer := do
  let w ← get
  let x := w.object o
  if !w.host.isolated && !x.header.isImmortal then pure .skipped
  else
    match x.header.release with
    | .skipped => pure (.released .alive (objectInfo w o))
    | .overflow => panic .countOverflow
    | .negative next =>
      set (((w.noteRelease next).setHeader o next).sink next.count.val)
      pure (.released .alive (objectInfo w o))
    | .stored next released =>
      let w := (w.noteRelease next).setHeader o next
      set w
      pure (.released released (objectInfo w o))

def runObject : ObjectCommand → Step Answer
  | .code id c => do
    modifyEnv fun e => { e with codes := e.codes.put id c }
    pure (.code c)
  | .type id t => do
    modifyEnv fun e => { e with types := e.types.put id t }
    pure (.type t)
  | .builtinType name =>
    match TypeInfo.builtins.find? fun t => t.name == name with
    | some t => pure (.type t)
    | none => fail (.unknownName name)
  | .make id v => do
    let o ← lift fun w => makeValue w v
    let info := objectInfo (← get) o
    storeObject id o
    pure (.object info)
  | .info id => do
    let o ← named Env.objects id
    let w ← get
    let x := w.object o
    pure (.objectDetail (objectInfo w o) x.isNone x.asInt x.asStr)
  | .same a b => do
    let a ← named Env.objects a
    let b ← named Env.objects b
    pure (.same (a == b))
  | .release id => dropObject id
  | .cloneMany id n => do
    let o ← named Env.objects id
    modify fun w => w.retainMany o n
    let kept := (objectInfo (← get) o).count
    modify fun w => w.drop (List.replicate n (.object o))
    pure (.counts kept (objectInfo (← get) o).count)
  | .markImmortal id => do
    let o ← named Env.objects id
    modify fun w => w.markImmortal o
    pure (.object (objectInfo (← get) o))
  | .retain id n => do
    let o ← named Env.objects id
    modify fun w => w.retainMany o n
    pure (.object (objectInfo (← get) o))
  | .releaseHeader id => do
    let o ← named Env.objects id
    releaseObjectHeader o
  | .setCount id count => do
    let o ← named Env.objects id
    let w ← get
    let h := (w.object o).header
    if !w.host.isolated && !h.isImmortal && count.val < h.count.val then pure .skipped
    else
      modify fun w => w.setCount o count
      pure (.object (objectInfo (← get) o))
  | .refTotal => do pure (.number (← get).refTotal)
  | .dumpRefs .ask => do pure (.flag (← get).dumpRefs)
  | .dumpRefs (.set on) => do
    modify fun w => { w with dumpRefs := on }
    pure (.flag on)
  | .dumpRefs .toggle => do
    modify fun w => { w with dumpRefs := !w.dumpRefs }
    let on := (← get).dumpRefs
    pure (.toggled on on)

end Activation.Script
