import Activation.Proofs.Play
import Activation.Proofs.Stack.Steps

/-! # The invariant of the stack

As long as no frame is pushed that is on the chain, the chain ends and is as long as the stack says.

* `Label.Fresh`: a step that pushes no frame that is on the chain.
* `World.WellStacked`: the chain ends, repeats no frame, fits the depth and the links, and is verified.
* `pushes`: the frames that were pushed, the latest first.
* `Config.InOrder`: the list of the stack and its history; `Kept.inOrder`: both along a run.
* `stack_invariant`: the invariant, and what pops, guards and groups of guards do.
-/

namespace Activation
set_option autoImplicit false

namespace StackOp

/-- The frame that goes on the stack. -/
def pushed : StackOp → Option FrameId
  | .push f => some f
  | .pop => none
  | .enter f => some f
  | .leave _ => none

/-- What becomes of the list if a pushed frame is not on it. -/
def put (fs : List FrameId) : StackOp → List FrameId
  | .push f => f :: fs
  | .pop => fs.tail
  | .enter f => f :: fs
  | .leave _ => fs.tail

theorem pushOn_of_not_mem {fs : List FrameId} {f : FrameId} (new : f ∉ fs) : pushOn fs f = f :: fs := by
  refine if_neg ?_
  rintro (inner | top)
  · exact new (List.dropLast_subset fs inner)
  · exact new (List.mem_of_mem_head? top)

theorem apply_eq_put {fs : List FrameId} {op : StackOp} (fresh : ∀ f, op.pushed = some f → f ∉ fs) :
    apply fs op = put fs op := by
  cases op with
  | push f => exact pushOn_of_not_mem (fresh f rfl)
  | pop => rfl
  | enter f => exact pushOn_of_not_mem (fresh f rfl)
  | leave f => rfl

theorem foldl_put_enter (fs xs : List FrameId) : (xs.map enter).foldl put fs = xs.reverse ++ fs := by
  induction xs generalizing fs with
  | nil => rfl
  | cons x xs ih =>
    rw [List.map_cons, List.foldl_cons, put, ih, List.reverse_cons, List.append_assoc, List.singleton_append]

theorem foldl_put_leave (fs xs : List FrameId) : (xs.map leave).foldl put fs = fs.drop xs.length := by
  induction xs generalizing fs with
  | nil => rfl
  | cons x xs ih => rw [List.map_cons, List.foldl_cons, put, ih, List.drop_tail, List.length_cons]

/-- Guards may be dropped in any order, since each takes off one frame. -/
theorem foldl_put_group (fs : List FrameId) {xs ys : List FrameId} (same : ys.length = xs.length) :
    (xs.map enter ++ ys.map leave).foldl put fs = fs := by
  rw [List.foldl_append, foldl_put_enter, foldl_put_leave, same, ← List.length_reverse, List.drop_left]

end StackOp

variable {ε : Type}

def Label.pushed (l : Label) : Option FrameId := l.stackOp.bind StackOp.pushed

def Label.Fresh (c : Config ε) (l : Label) : Prop := ∀ f ∈ l.pushed, f ∉ c.world.chain

instance Label.decidableFresh (c : Config ε) (l : Label) : Decidable (l.Fresh c) :=
  inferInstanceAs (Decidable (∀ f ∈ l.pushed, f ∉ c.world.chain))

/-- The frames that were pushed, the latest first. -/
def pushes (ls : List Label) : List FrameId := (ls.filterMap Label.pushed).reverse

structure World.WellStacked (w : World ε) : Prop where
  ends : w.Leads w.stack.current w.chain
  distinct : w.chain.Nodup
  depth : w.stack.depth = w.chain.length
  linked : ∀ f, (w.frame f).prev.isSome = true ↔ f ∈ w.chain ∧ w.chain.getLast? ≠ some f
  verified : ∀ limit, w.stack.depth ≤ limit → w.verifyChain limit = .ok w.stack.depth

namespace World.Tracks

variable {w : World ε} {fs : List FrameId}

theorem chain_eq (tracks : w.Tracks fs) (distinct : fs.Nodup) : w.chain = fs := (tracks.leads distinct).chain_eq

theorem wellStacked (tracks : w.Tracks fs) (distinct : fs.Nodup) : w.WellStacked := by
  have chain := tracks.chain_eq distinct
  have leads := tracks.leads distinct
  refine ⟨chain ▸ leads, chain ▸ distinct, chain ▸ tracks.depth, fun f => ?_,
    fun limit within => leads.verifyChain_eq tracks.depth within⟩
  rw [chain, ← World.mem_dropLast_iff distinct]
  exact tracks.isLinked_iff

end World.Tracks

/-- Of the frames of any end of the list, the first was pushed last. -/
def Recalls (history fs : List FrameId) : Prop := ∀ s, s <:+ fs → history.find? (· ∈ s) = s.head?

namespace Recalls

variable {history fs : List FrameId}

theorem push (recalls : Recalls history fs) {f : FrameId} (new : f ∉ fs) : Recalls (f :: history) (f :: fs) := by
  intro s ending
  rcases List.suffix_cons_iff.mp ending with rfl | later
  · rw [List.find?_cons_of_pos (by simp), List.head?_cons]
  · have other : f ∉ s := fun mem => new (later.subset mem)
    rw [List.find?_cons_of_neg (by simpa using other), recalls s later]

theorem tail (recalls : Recalls history fs) : Recalls history fs.tail := fun s ending =>
  recalls s (ending.trans (List.tail_suffix fs))

end Recalls

structure Config.InOrder (c : Config ε) (fs history : List FrameId) : Prop where
  sound : c.Sound
  tracks : c.world.Tracks fs
  distinct : fs.Nodup
  recalls : Recalls history fs

theorem Config.start_inOrder (host : ε) : (Config.start host).InOrder [] [] where
  sound := Config.start_sound host
  tracks := Config.start_tracks host
  distinct := List.nodup_nil
  recalls s ending := by rw [List.suffix_nil.mp ending]; rfl

theorem Step.inOrder {c d : Config ε} {l : Label} {fs history : List FrameId} (step : Step c l d)
    (fresh : l.Fresh c) (order : c.InOrder fs history) :
    d.InOrder (l.stackOp.toList.foldl StackOp.put fs) (l.pushed.toList ++ history) := by
  have after := step.tracks order.sound order.tracks
  have sound := step.sound order.sound
  unfold Label.Fresh at fresh
  rw [order.tracks.chain_eq order.distinct] at fresh
  unfold Label.pushed at fresh ⊢
  unfold Label.track at after
  cases moves : l.stackOp with
  | none =>
    rw [moves] at after
    exact ⟨sound, after, order.distinct, order.recalls⟩
  | some op =>
    rw [moves, Option.elim_some] at after
    rw [moves, Option.bind_some] at fresh
    rw [StackOp.apply_eq_put fresh] at after
    have pushed : ∀ f, f ∉ fs → (f :: fs).Nodup ∧ Recalls (f :: history) (f :: fs) := fun f new =>
      ⟨List.nodup_cons.mpr ⟨new, order.distinct⟩, order.recalls.push new⟩
    have popped : fs.tail.Nodup ∧ Recalls history fs.tail :=
      ⟨order.distinct.sublist (List.tail_sublist fs), order.recalls.tail⟩
    cases op with
    | push f => exact ⟨sound, after, (pushed f (fresh f rfl)).1, (pushed f (fresh f rfl)).2⟩
    | pop => exact ⟨sound, after, popped.1, popped.2⟩
    | enter f => exact ⟨sound, after, (pushed f (fresh f rfl)).1, (pushed f (fresh f rfl)).2⟩
    | leave f => exact ⟨sound, after, popped.1, popped.2⟩

theorem Kept.inOrder {c d : Config ε} {ls : List Label} {fs history : List FrameId}
    (kept : Kept Label.Fresh c ls d) (order : c.InOrder fs history) :
    d.InOrder ((ls.filterMap Label.stackOp).foldl StackOp.put fs) (pushes ls ++ history) := by
  induction kept with
  | nil => exact order
  | @snoc ls l d e init step fresh ih =>
    have after := step.inOrder fresh ih
    rw [List.filterMap_append, List.foldl_append, pushes, List.filterMap_append, List.reverse_append]
    have ops : [l].filterMap Label.stackOp = l.stackOp.toList := by cases read : l.stackOp <;> simp [read]
    have frames : ([l].filterMap Label.pushed).reverse = l.pushed.toList := by cases read : l.pushed <;> simp [read]
    rw [ops, frames, List.append_assoc]
    exact after

/-- A guard panics unless it finds its own frame on top. -/
theorem Step.leave_panics {c d : Config ε} {f : FrameId} (sound : c.Sound) (step : Step c (.op (.leave f)) d) :
    (c.world.leave f).catchPanic.1 = if c.world.stack.current = some f then none else some .unbalancedPop := by
  cases step with
  | @op _ rest named fits takes =>
    have acc : Accounted c.world (.frame f ::ₘ (rest + c.reserved)) := by
      have outside : c.outside = .frame f ::ₘ (rest + c.reserved) := by
        rw [Config.outside, takes, add_assoc]
        rfl
      exact outside ▸ sound.accounted
    split
    · next balanced => rw [World.catchPanic_of_none ((acc.fault_leave balanced).trans sound.calm)]
    · next unbalanced => rw [World.catchPanic_of_unwinding (acc.fault_leave_strayed sound.calm unbalanced)]

/-- If no frame is pushed that is on the chain, the chain ends, repeats no frame, and agrees with the depth, the links
and the check. A pop takes off the frame that was pushed last of those on the chain, and unlinks it. A guard takes off
one frame as well, and panics if that is not its own. After a group of guards, dropped in any order, the stack is as
before. -/
theorem stack_invariant (host : ε) {ls : List Label} {c : Config ε}
    (kept : Kept Label.Fresh (Config.start host) ls c) :
    c.world.WellStacked ∧
    (c.world.pop.1 = (pushes ls).find? (· ∈ c.world.chain) ∧ c.world.pop.2.chain = c.world.chain.tail ∧
      c.world.pop.2.WellStacked ∧ ∀ f, c.world.pop.1 = some f →
        (c.world.pop.2.frame f).prev = none ∧ c.world.pop.2.stack.depth + 1 = c.world.stack.depth) ∧
    (∀ f d, Step c (.op (.leave f)) d →
      d.world.WellStacked ∧ d.world.chain = c.world.chain.tail ∧
      (c.world.leave f).catchPanic.1.map Panic.message =
        if c.world.chain.head? = some f then none else some "unbalanced shadow frame pop") ∧
    ∀ (xs ys : List FrameId) (ms : List Label) (d : Config ε), Kept Label.Fresh c ms d →
      ms.filterMap Label.stackOp = xs.map .enter ++ ys.map .leave → ys.Perm xs →
      c.world.SameStack d.world ∧ d.world.chain = c.world.chain := by
  have order := kept.inOrder (Config.start_inOrder host)
  rw [List.append_nil] at order
  generalize (ls.filterMap Label.stackOp).foldl StackOp.put [] = fs at order
  have chain := order.tracks.chain_eq order.distinct
  have shorter := order.distinct.sublist (List.tail_sublist fs)
  rw [chain]
  refine ⟨order.tracks.wellStacked order.distinct, ⟨?_, ?_, ?_, fun f popped => ?_⟩, fun f d step => ?_,
    fun xs ys ms d group ops perm => ?_⟩
  · rw [order.recalls fs List.suffix_rfl, World.pop_fst, order.tracks.top]
  · exact order.tracks.popped.chain_eq shorter
  · exact order.tracks.popped.wellStacked shorter
  · rw [World.pop_fst] at popped
    refine ⟨by rw [World.prev_pop popped, if_pos rfl], ?_⟩
    have there : fs.head? = some f := order.tracks.top ▸ popped
    have long : 0 < fs.length := List.length_pos_of_mem (List.mem_of_mem_head? there)
    rw [order.tracks.popped.depth, order.tracks.depth, List.length_tail]
    omega
  · have after := step.tracks order.sound order.tracks
    refine ⟨after.wellStacked shorter, after.chain_eq shorter, ?_⟩
    rw [step.leave_panics order.sound, order.tracks.top]
    split <;> rfl
  · have after := group.inOrder order
    rw [ops, StackOp.foldl_put_group fs perm.length_eq] at after
    exact ⟨order.tracks.sameStack after.tracks, after.tracks.chain_eq after.distinct⟩

/-- Two guards are dropped in the order in which they were made, so both find the frame of the other and panic. -/
theorem stack_invariant_crossed :
    ∃ (ls ms : List Label) (c d : Config Unit), Kept Label.Fresh (Config.start ()) ls c ∧
      Kept Label.Fresh c ms d ∧
      ms.filterMap Label.stackOp = [.enter 2, .enter 0, .leave 2, .leave 0] ∧
      c.world.WellStacked ∧ c.world.chain = [1] ∧ c.world.pop.1 = some 1 ∧ c.world.verifyChain 7 = .ok 1 ∧
      (c.world.leave 0).catchPanic.1.map Panic.message = some "unbalanced shadow frame pop" ∧
      c.world.SameStack d.world ∧ d.world.chain = [1] := by
  let code : Code := { module := "m", name := "f" }
  let group : List Play := [.call (.enter 2), .call (.enter 0), .call (.clone (.object nothing)), .call (.leave 2),
    .call (.leave 0)]
  let crosses (ls : List Label) (c : Config Unit) : Bool :=
    decide (c.world.chain = [1]) && decide (c.world.stack.depth = 1) &&
      decide ((pushes ls).find? (· ∈ [1]) = some 1) && decide ((.frame 0 ::ₘ 0 : Multiset Handle) ≤ c.owned) &&
        (Config.keepAll? Label.Fresh c group).any fun r =>
          decide (r.1.filterMap Label.stackOp = [.enter 2, .enter 0, .leave 2, .leave 0])
  obtain ⟨ls, c, kept, holds⟩ := Config.exists_kept (p := crosses)
    [.call (.newFrame code none), .call (.newFrame code none), .call (.newFrame code none), .call (.push 0),
      .call (.push 1), .call .pop, .call .pop, .call (.push 1)]
    (by decide +kernel : (Config.keepAll? Label.Fresh (Config.start ()) _).any _ = true)
  unfold crosses at holds
  simp only [Option.any_eq_true, Bool.and_eq_true, decide_eq_true_eq] at holds
  obtain ⟨⟨⟨⟨chain, depth⟩, latest⟩, enough⟩, ⟨ms, d⟩, played, ops⟩ := holds
  have group := Config.kept_of_keepAll? played
  obtain ⟨stacked, ⟨popped, -⟩, drops, restores⟩ := stack_invariant () kept
  obtain ⟨same, again⟩ := restores [2, 0] [2, 0] ms d group ops (.refl _)
  obtain ⟨rest, owned⟩ := Multiset.le_iff_exists_add.mp enough
  obtain ⟨-, -, panics⟩ :=
    drops 0 _ (.op (.leave 0) (fun _ member => absurd member List.not_mem_nil) trivial owned trivial)
  rw [chain] at popped again panics
  refine ⟨ls, ms, c, d, kept, group, ops, stacked, chain, popped.trans latest, ?_, panics, same, again⟩
  rw [← depth]
  exact stacked.verified 7 (by omega)

end Activation
