import Activation.World.Stack

/-! # Walks

A walk follows the logical call chain from the inside out: from a frame it continues at the frame of
a live awaiter, and otherwise at the frame below. No walk visits more frames than the world's bound.

* `World.nextFrame`: where a walk continues.
* `World.traverse`: visits frames in order until the visitor stops it, the path ends, or the bound
  is reached.
* `World.snapshot`, `World.callStack`, `World.samples`, `World.findFirstArg`: what is read off a walk.
-/

namespace Activation
set_option autoImplicit false

inductive WalkError where
  | outOfMemory
  | depthExceeded (limit : Nat)
deriving DecidableEq, Repr

def WalkError.message : WalkError → String
  | .outOfMemory => "out of memory while collecting the call stack"
  | .depthExceeded limit => "call stack deeper than " ++ toString limit ++ " frames"

/-- A visitor's answer. -/
inductive Directive where
  | onward
  | stop
deriving DecidableEq, Repr

/-- How much a snapshot records of each frame. -/
inductive Detail where
  | names
  | lines
  | frames
deriving DecidableEq, Repr

namespace Detail

def wantsLine (d : Detail) : Bool := d ≠ .names

def wantsFrame (d : Detail) : Bool := d = .frames

end Detail

structure StackEntry where
  qualname : String
  line : Option Nat
  /-- The record, for frames that already had one. -/
  record : Option RecordId
deriving DecidableEq, Repr

/-- One frame as a profiler samples it. -/
structure StackSample where
  code : Code
  line : Option Nat
deriving DecidableEq, Repr

/-- Both views of a stack, innermost first. -/
structure StackSamples where
  /-- Along awaiters. -/
  suspended : List StackSample
  /-- Along predecessors only. -/
  native : List StackSample
deriving DecidableEq, Repr

namespace World

variable {ε σ : Type}

def nextFrame (w : World ε) (f : FrameId) : Option FrameId := (w.awaiter f).or (w.frame f).prev

/-! ## Visiting -/

/-- Visits at most `n` frames from `cursor` on. The visitor keeps a state and may fail. -/
def traverse (w : World ε) (visit : FrameId → σ → Except WalkError Directive × σ) :
    Nat → Nat → Option FrameId → σ → Except WalkError Nat × σ
  | _, visited, none, s => (.ok visited, s)
  | 0, _, some _, s => (.error (.depthExceeded w.maxDepth), s)
  | n + 1, visited, some f, s =>
    match visit f s with
    | (.error e, s) => (.error e, s)
    | (.ok .stop, s) => (.ok (visited + 1), s)
    | (.ok .onward, s) => w.traverse visit n (visited + 1) (w.nextFrame f) s

/-- A walk from any frame, within the bound. -/
def walkFrom (w : World ε) (start : Option FrameId)
    (visit : FrameId → σ → Except WalkError Directive × σ) (s : σ) : Except WalkError Nat × σ :=
  w.traverse visit w.maxDepth 0 start s

/-- Reports how a walk ended. -/
def reportWalk (w : World ε) (r : Except WalkError Nat) : World ε :=
  match r with
  | .ok visited => w.emit ⟨.trace, "umbra::walk", "walk finished", [("frames", .text (toString visited))]⟩
  | .error (.depthExceeded limit) =>
    w.emit ⟨.debug, "umbra::walk", "walk exceeded depth bound", [("limit", .text (toString limit))]⟩
  | .error .outOfMemory => w

/-- A visitor that collects what it sees, innermost first. -/
def collect {α : Type} (f : FrameId → α) (i : FrameId) (seen : List α) :
    Except WalkError Directive × List α := (.ok .onward, f i :: seen)

/-! ## Snapshots -/

def entry (w : World ε) (detail : Detail) (f : FrameId) : StackEntry :=
  let resolved := w.resolve f
  { qualname := resolved.qualifiedName,
    line := if detail.wantsLine then w.line f else none,
    record := if detail.wantsFrame then resolved.record else none }

/-- The logical call chain, outermost frame first. -/
def snapshot (w : World ε) (detail : Detail) : Except WalkError (List StackEntry) × World ε :=
  let (result, seen) := w.walkFrom w.stack.current (collect (w.entry detail)) []
  (result.map fun _ => seen, w.reportWalk result)

/-- The chain of predecessors, outermost frame first, if it has at most `n` frames. -/
def nativeChain (w : World ε) : Nat → Option FrameId → List FrameId → Except WalkError (List FrameId)
  | _, none, seen => .ok seen
  | 0, some _, _ => .error (.depthExceeded w.maxDepth)
  | n + 1, some f, seen => w.nativeChain n (w.frame f).prev (f :: seen)

/-- The code of every frame of the chain of predecessors, outermost first. -/
def callStack (w : World ε) : Except WalkError (List Code) :=
  (w.nativeChain w.maxDepth w.stack.current []).map fun fs => fs.map fun f => (w.frame f).code

/-! ## Samples -/

def sample (w : World ε) (f : FrameId) : StackSample := ⟨(w.frame f).code, w.line f⟩

/-- A visitor that stops at the first frame it has no room for. -/
def sampler (w : World ε) (capacity : Nat) (f : FrameId) (seen : List StackSample × Nat) :
    Except WalkError Directive × (List StackSample × Nat) :=
  if capacity ≤ seen.2 then (.ok .stop, seen)
  else (.ok .onward, (w.sample f :: seen.1, seen.2 + 1))

/-- Both views of the stack with at most `capacity` frames each. -/
def samples (w : World ε) (capacity : Nat) : Except WalkError StackSamples × World ε :=
  let (result, seen) := w.walkFrom w.stack.current (w.sampler capacity) ([], 0)
  let native := (w.chainFrom capacity w.stack.current).map w.sample
  (result.map fun _ => ⟨seen.1.reverse, native⟩, w.reportWalk result)

/-! ## First arguments -/

/-- Whether a frame has a record whose code bears this name. -/
def recordNamed (w : World ε) (name : String) (f : FrameId) : Option RecordId :=
  (w.frame f).record.filter fun r => (w.record r).code.name = name

/-- A visitor that skips frames and then stops at the first one of that name that has a record. -/
def seek (w : World ε) (name : String) (f : FrameId) (s : Nat × Option RecordId) :
    Except WalkError Directive × (Nat × Option RecordId) :=
  if 0 < s.1 then (.ok .onward, (s.1 - 1, s.2))
  else
    match w.recordNamed name f with
    | some r => (.ok .stop, (s.1, some r))
    | none => (.ok .onward, s)

/-- A new reference to the first parameter of the first frame of that name that has a record, after
skipping `skip` frames. -/
def findFirstArg (w : World ε) (name : String) (skip : Nat) :
    Except WalkError (Option ObjId) × World ε :=
  let (result, s) := w.walkFrom w.stack.current (w.seek name) (skip, none)
  match s.2 with
  | some r =>
    let (found, w) := w.slot r 0
    (result.map fun _ => found, w.reportWalk result)
  | none => (result.map fun _ => none, w.reportWalk result)

/-! ## Awaiters -/

/-- The record of whoever awaits the running frame. -/
def awaiterFrame (host : Host ε) (w : World ε) :
    Except Panic (Except FrameError RecordId) × World ε :=
  match w.stack.current.bind w.awaiter with
  | none => (.ok (.error .notFound), w)
  | some a => w.materialize host a

end World

end Activation
