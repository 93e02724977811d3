import Activation.Proofs.Walk.Views

/-! # Reports on the stack

A report reads the links, the codes, the positions and the names of the frames, and nothing else.

* `World.Reads v w`: all of these are in `w` what they are in `v`.
* `World.SameReports v w`: the reports on `w` are those on `v`.
* `World.Reads.sameReports`: the first makes the second.
-/

namespace Activation.World
set_option autoImplicit false

variable {ε σ : Type}

structure Reads (v w : World ε) : Prop where
  stack : w.stack = v.stack
  maxDepth : w.maxDepth = v.maxDepth
  next : w.frames.next = v.frames.next
  code : ∀ f, (w.frame f).code = (v.frame f).code
  prev : ∀ f, (w.frame f).prev = (v.frame f).prev
  awaiter : ∀ f, w.awaiter f = v.awaiter f
  lastInstr : ∀ f, w.lastInstr f = v.lastInstr f
  name : ∀ f, (w.resolve f).qualifiedName = (v.resolve f).qualifiedName

structure SameReports (v w : World ε) : Prop where
  names : (w.snapshot .names).1 = (v.snapshot .names).1
  lines : (w.snapshot .lines).1 = (v.snapshot .lines).1
  callStack : w.callStack = v.callStack
  samples : ∀ capacity, (w.samples capacity).1 = (v.samples capacity).1
  verifyChain : ∀ limit, w.verifyChain limit = v.verifyChain limit
  lastInstr : ∀ f, w.lastInstr f = v.lastInstr f
  line : ∀ f, w.line f = v.line f

variable {v w : World ε}

/-! ## Along equal links -/

theorem traverse_congr (next : ∀ f, w.nextFrame f = v.nextFrame f) (bound : w.maxDepth = v.maxDepth)
    (visit : FrameId → σ → Except WalkError Directive × σ) (n visited : Nat) (o : Option FrameId) (s : σ) :
    w.traverse visit n visited o s = v.traverse visit n visited o s := by
  induction n generalizing visited o s with
  | zero =>
    cases o with
    | none => rfl
    | some f => rw [traverse, traverse, bound]
  | succ n ih =>
    cases o with
    | none => rfl
    | some f =>
      rw [traverse, traverse]
      split
      · rfl
      · rfl
      · rw [next, ih]

theorem chainFrom_congr (links : ∀ f, (w.frame f).prev = (v.frame f).prev) (n : Nat) (o : Option FrameId) :
    w.chainFrom n o = v.chainFrom n o := by
  induction n generalizing o with
  | zero => rfl
  | succ n ih =>
    cases o with
    | none => rfl
    | some f => rw [chainFrom, chainFrom, links, ih]

theorem verifyFrom_congr (links : ∀ f, (w.frame f).prev = (v.frame f).prev) (limit n depth : Nat)
    (seen : Std.HashSet FrameId) (o : Option FrameId) :
    w.verifyFrom limit n depth seen o = v.verifyFrom limit n depth seen o := by
  induction n generalizing depth seen o with
  | zero => cases o <;> rfl
  | succ n ih =>
    cases o with
    | none => rfl
    | some f => rw [verifyFrom, verifyFrom, links, ih]

/-! ## Reports -/

namespace Reads

theorem line (same : Reads v w) (f : FrameId) : w.line f = v.line f := by
  rw [World.line, World.line, same.code, same.lastInstr]

theorem walkFrom (same : Reads v w) (o : Option FrameId) (visit : FrameId → σ → Except WalkError Directive × σ)
    (s : σ) : w.walkFrom o visit s = v.walkFrom o visit s := by
  have next : ∀ f, w.nextFrame f = v.nextFrame f := by
    intro f
    rw [nextFrame, nextFrame, same.awaiter, same.prev]
  rw [World.walkFrom, World.walkFrom, traverse_congr next same.maxDepth, same.maxDepth]

theorem snapshot (same : Reads v w) {detail : Detail} (shallow : detail.wantsFrame = false) :
    (w.snapshot detail).1 = (v.snapshot detail).1 := by
  have entry : w.entry detail = v.entry detail := by
    funext f
    simp only [World.entry, same.name, same.line, shallow, Bool.false_eq_true, if_false]
  simp only [World.snapshot, entry, same.walkFrom, same.stack]

theorem samples (same : Reads v w) (capacity : Nat) : (w.samples capacity).1 = (v.samples capacity).1 := by
  have sample : w.sample = v.sample := by
    funext f
    rw [World.sample, World.sample, same.code, same.line]
  have sampler : w.sampler capacity = v.sampler capacity := by
    funext f seen
    rw [World.sampler, World.sampler, sample]
  simp only [World.samples, sampler, sample, same.walkFrom, chainFrom_congr same.prev, same.stack]

theorem verifyChain (same : Reads v w) (limit : Nat) : w.verifyChain limit = v.verifyChain limit := by
  unfold World.verifyChain chainBound
  rw [verifyFrom_congr same.prev, same.stack, same.next]

theorem sameReports (same : Reads v w) : SameReports v w where
  names := same.snapshot rfl
  lines := same.snapshot rfl
  callStack := callStack_congr same.code same.prev same.maxDepth (by rw [same.stack])
  samples := same.samples
  verifyChain := same.verifyChain
  lastInstr := same.lastInstr
  line := same.line

end Reads

end Activation.World
