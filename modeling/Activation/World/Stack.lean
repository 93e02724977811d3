import Activation.World.Frames
import Std.Data.HashSet

/-! # The stack

Frames of the running thread, linked from the innermost outwards. The stack owns its innermost frame,
and every frame owns the one below it.

* `World.push`, `World.pop`: linking and unlinking the innermost frame.
* `World.enter`, `World.leave`: the same under a guard, which remembers its frame.
* `World.verifyChain`: whether the chain ends, and has as many frames as the stack tracks.
-/

namespace Activation.World
set_option autoImplicit false

variable {ε : Type}

/-- Links a frame on top of the stack, which then owns a handle on it. -/
def push (w : World ε) (f : FrameId) : Except Panic (World ε) :=
  if (w.frame f).isLinked then .error .alreadyLinked
  else if w.stack.current = some f then .error .ontoItself
  else
    .ok (((w.holdFrame f).modifyFrame f fun x => { x with prev := w.stack.current }).setStack
      ⟨some f, w.stack.depth + 1⟩)

/-- Unlinks the innermost frame. The stack's handle on it goes to the caller. -/
def pop (w : World ε) : Option FrameId × World ε :=
  match w.stack.current with
  | none => (none, w)
  | some f =>
    (some f, (w.modifyFrame f fun x => { x with prev := none }).setStack
      ⟨(w.frame f).prev, w.stack.depth - 1⟩)

/-- Pushes a frame under a guard, which owns a handle of its own. -/
def enter (w : World ε) (f : FrameId) : Except Panic (World ε) := (w.push f).map fun w => w.holdFrame f

/-- Drops the guard of a frame: pops one frame, and panics if that was not the guard's own. -/
def leave (w : World ε) (f : FrameId) : World ε :=
  let (popped, w) := w.pop
  let w := if popped = some f then w else w.panic .unbalancedPop
  w.drop (popped.toList.map .frame ++ [.frame f])

/-! ## The chain -/

/-- The frames from `f` outwards along predecessors, at most `n` of them. -/
def chainFrom (w : World ε) : Nat → Option FrameId → List FrameId
  | 0, _ => []
  | _, none => []
  | n + 1, some f => f :: w.chainFrom n (w.frame f).prev

/-- A chain without a repeated frame is no longer than this: every frame of the store, and one that is
in no store. -/
def chainBound (w : World ε) : Nat := w.frames.next + 1

/-- The chain of the running thread, innermost frame first. -/
def chain (w : World ε) : List FrameId := w.chainFrom w.chainBound w.stack.current

/-- Whether the chain of the running thread comes back to a frame, and so never ends. -/
def isEndless (w : World ε) : Bool :=
  w.chainBound < (w.chainFrom (w.chainBound + 1) w.stack.current).length

/-- Follows the chain at depth `depth`, refusing a frame seen before and more than `limit` frames. -/
def verifyFrom (w : World ε) (limit : Nat) :
    Nat → Nat → Std.HashSet FrameId → Option FrameId → Except FrameError Nat
  | _, depth, _, none => .ok depth
  | 0, depth, _, some _ => .error (.corruptChain depth)
  | n + 1, depth, seen, some f =>
    if seen.contains f || limit ≤ depth then .error (.corruptChain depth)
    else w.verifyFrom limit n (depth + 1) (seen.insert f) (w.frame f).prev

/-- The depth of the stack, if its chain ends within `limit` frames and is as long as tracked. -/
def verifyChain (w : World ε) (limit : Nat) : Except FrameError Nat :=
  match w.verifyFrom limit w.chainBound 0 {} w.stack.current with
  | .error e => .error e
  | .ok depth =>
    if w.stack.depth = depth then .ok depth else .error (.depthMismatch w.stack.depth depth)

/-! ## Requests over the whole chain -/

/-- Builds the records of these frames in order, up to the first failure. -/
def materializeEach (host : Host ε) (w : World ε) :
    List FrameId → List RecordId → Except Panic (Except FrameError (List RecordId)) × World ε
  | [], done =>
    (.ok (.ok done.reverse), w.emit ⟨.debug, "umbra::frame", "materialized call stack",
      [("frames", .text (toString done.length))]⟩)
  | f :: rest, done =>
    match w.materialize host f with
    | (.error p, w) => (.error p, w)
    | (.ok (.error e), w) => (.ok (.error e), w)
    | (.ok (.ok r), w) => materializeEach host w rest (r :: done)

/-- The records of every frame on the chain, innermost first. -/
def materializeAll (host : Host ε) (w : World ε) :
    Except Panic (Except FrameError (List RecordId)) × World ε :=
  w.materializeEach host w.chain []

/-- Reports every frame of the chain, innermost first. -/
def dump (w : World ε) : World ε :=
  w.chain.zipIdx.foldl (fun v (f, index) =>
    let x := w.frame f
    v.emit ⟨.trace, "umbra::frame", "shadow frame",
      [("index", .text (toString index)), ("frame", .text x.code.qualifiedName),
       ("owner", .text x.owner.name), ("materialized", .text (Text.inspectBool x.isMaterialized)),
       ("line", .text (Text.inspectOption ((w.line f).map toString)))]⟩) w

end Activation.World
