import Activation.Proofs.Handles.Moves

/-! # Moves of frames

The functions on frames and the stack, taken apart into moves. Each lemma says what the function takes from
outside the world and what it gives out, and asks its footprint for no more than it changes.
-/

namespace Activation
set_option autoImplicit false

variable {ε : Type}

/-! ## Reading after a change -/

namespace World

/-- What a change keeps of every frame, it keeps of the frame it is made to. -/
theorem frame_modifyFrame {β : Type} (p : Frame → β) (w : World ε) (i j : FrameId) (f : Frame → Frame)
    (keep : ∀ x, p (f x) = p x) : p ((w.modifyFrame i f).frame j) = p (w.frame j) := by
  simp only [World.frame, World.modifyFrame, Store.get?_modify]
  by_cases own : i = j
  · subst own
    cases w.frames.get? i <;> simp [keep]
  · simp [own]

theorem record_modifyRecord {β : Type} (p : Record → β) (w : World ε) (r s : RecordId)
    (f : Record → Record) (keep : ∀ x, p (f x) = p x) :
    p ((w.modifyRecord r f).record s) = p (w.record s) := by
  simp only [World.record, World.modifyRecord, Store.get?_modify]
  by_cases own : r = s
  · subst own
    cases w.records.get? r <;> simp [keep]
  · simp [own]

theorem generator_modifyGenerator {β : Type} (p : Generator → β) (w : World ε) (g k : GenId)
    (f : Generator → Generator) (keep : ∀ x, p (f x) = p x) :
    p ((w.modifyGenerator g f).generator k) = p (w.generator k) := by
  simp only [World.generator, World.modifyGenerator, Store.get?_modify]
  by_cases own : g = k
  · subst own
    cases w.generators.get? g <;> simp [keep]
  · simp [own]

theorem panic_eq (w : World ε) (p : Panic) : w.panic p = { w with fault := (w.panic p).fault } := by
  unfold World.panic
  split <;> rfl

theorem catchPanic_eq (w : World ε) : w.catchPanic.2 = { w with fault := w.catchPanic.2.fault } := by
  unfold World.catchPanic
  split <;> rfl

theorem leave_eq (w : World ε) (f : FrameId) : w.leave f =
    (if w.pop.1 = some f then w.pop.2 else w.pop.2.panic .unbalancedPop).drop
      (w.pop.1.toList.map .frame ++ [.frame f]) := rfl

end World

namespace Moves

variable {F : Footprint} {w v u : World ε} {out mid rest : Multiset Handle}

theorem panic (p : Panic) (faults : F.faults) : Moves F w out (w.panic p) out := by
  rw [World.panic_eq]
  exact one (.fault faults _)

theorem catchPanic (faults : F.faults) : Moves F w out w.catchPanic.2 out := by
  rw [World.catchPanic_eq]
  exact one (.fault faults _)

/-! ## Frames -/

theorem setIp (f : FrameId) (ip : Int)
    (allowed : ∀ r, (w.frame f).record = some r → F.records r ∨ (ip = -1 ↔ (w.record r).lastInstr = -1)) :
    Moves F w out (w.setIp f ip) out := by
  have moved : Moves F w out (w.modifyFrame f fun x => { x with ip := ip }) out :=
    editFrame f _ (fun _ => rfl) (fun _ => rfl) fun _ => rfl
  have same : ((w.modifyFrame f fun x => { x with ip := ip }).frame f).record = (w.frame f).record :=
    World.frame_modifyFrame Frame.record w f f _ fun _ => rfl
  simp only [World.setIp]
  rw [same]
  cases bound : (w.frame f).record with
  | none => exact moved
  | some r => exact moved.trans (setLastInstr r ip (allowed r bound))

theorem setFrameAwaiter (f : FrameId) (a : Option FrameId) :
    Moves F w out (w.setFrameAwaiter f a) out :=
  editFrame f _ (fun _ => rfl) (fun _ => rfl) fun _ => rfl

theorem attach {f : FrameId} {r : RecordId} (has : w.Has (.frame f)) (compact : (w.frame f).record = none)
    (attached : F.attached r) :
    Moves F w (.record r ::ₘ out) (w.modifyFrame f fun x => { x with record := some r }) out := by
  obtain ⟨x, found⟩ := Option.isSome_iff_exists.mp has
  have bare : x.record = none := by simpa [World.frame, found] using compact
  refine one (.editFrame _ found rfl (.inr ⟨bare, ?_⟩) (.inr rfl) ?_)
  · intro s bound
    have eq : r = s := by simpa using bound
    exact eq ▸ attached
  · simp only [Frame.held, Frame.heldRecord, Frame.heldBelow, bare, Option.toList_none, List.map_nil,
      List.nil_append, Option.toList_some, List.map_cons, List.cons_append, ← Multiset.cons_coe]
    rw [Multiset.add_cons, Multiset.cons_add]

theorem bindRecord {f : FrameId} {r : RecordId} (has : w.Has (.frame f)) (attached : F.attached r) :
    Moves F w (.record r ::ₘ out) (w.bindRecord f r).2 out := by
  unfold World.bindRecord
  split
  · exact dropOne w (.record r)
  · next compact =>
    exact attach has (by simpa [Frame.isMaterialized] using compact) attached

theorem materialize {f : FrameId} {x : Record} (has : w.Has (.frame f))
    (fits : (Op.materialize f x).Fits w) (attached : F.attached w.records.next) :
    Moves F w (↑x.held + out) (w.materialize (.building x) f).2 out := by
  obtain ⟨compact, built, one_owner⟩ := fits
  obtain ⟨b, builds⟩ := Option.isSome_iff_exists.mp built
  have added : Moves F w (↑x.held + out) (w.addRecord { x with lastInstr := (w.frame f).ip }).2
      (.record w.records.next ::ₘ out) :=
    Moves.one (.addRecord (x := { x with lastInstr := (w.frame f).ip }) one_owner)
  unfold World.materialize
  simp only [compact, builds, Host.building]
  refine added.trans ((emit _).trans (attach ?_ ?_ attached))
  · exact has
  · exact compact

/-! ## The stack -/

theorem map_detached_below (f : Option FrameId) (out : Multiset Handle) :
    (↑(f.toList.map Handle.frame) + out).map Handle.detached =
      (↑(f.toList.map Handle.below) + out).map Handle.detached := by
  cases f <;> simp [Handle.detached]

theorem push {f : FrameId} (has : w.Has (.frame f)) (links : F.links f) (stack : F.stack)
    (pushed : w.push f = .ok v) : Moves F w out v out := by
  unfold World.push at pushed
  split at pushed
  · cases pushed
  next unlinked =>
  split at pushed
  · cases pushed
  cases pushed
  obtain ⟨x, there⟩ := Option.isSome_iff_exists.mp has
  have free : x.prev = none := by simpa [World.frame, there, Frame.isLinked] using unlinked
  have held : Moves F w out (w.holdFrame f) (.frame f ::ₘ out) := hold has nofun
  have onTop : Moves F (w.holdFrame f) (.frame f ::ₘ out)
      ((w.holdFrame f).setStack ⟨some f, w.stack.depth + 1⟩) (↑w.stack.held + out) := by
    refine one (.setStack stack ?_)
    simp only [World.holdFrame, World.modifyFrame, Stack.held, Option.toList_some, List.map_cons,
      List.map_nil, Multiset.coe_singleton, ← Multiset.singleton_add]
    exact add_left_comm _ _ _
  have linked : Moves F ((w.holdFrame f).setStack ⟨some f, w.stack.depth + 1⟩)
      (↑(w.stack.current.toList.map Handle.below) + out)
      (((w.holdFrame f).modifyFrame f fun x => { x with prev := w.stack.current }).setStack
        ⟨some f, w.stack.depth + 1⟩) out := by
    have found : ((w.holdFrame f).setStack ⟨some f, w.stack.depth + 1⟩).frames.get? f =
        some { x with owners := x.owners + 1 } := by
      simp [World.setStack, World.holdFrame, World.modifyFrame, Store.get?_modify, there]
    refine one (.editFrame (fun x => { x with prev := w.stack.current }) found rfl (.inl rfl) (.inl links) ?_)
    simp only [Frame.held, Frame.heldRecord, Frame.heldBelow, free, Option.toList_none, List.map_nil,
      List.append_nil, ← Multiset.coe_add]
    exact (add_assoc _ _ _).symm
  -- the handle on the former top goes from the stack to the new top
  exact ((held.trans onTop).trans (relabel (map_detached_below _ _))).trans linked

theorem pop (links : ∀ f, w.stack.current = some f → F.links f) (stack : F.stack) :
    Moves F w out w.pop.2 (↑(w.pop.1.toList.map Handle.frame) + out) := by
  unfold World.pop
  cases top : w.stack.current with
  | none => exact Moves.refl.cast rfl (by simp)
  | some f =>
    have unlinked : Moves F w out (w.modifyFrame f fun x => { x with prev := none })
        (↑((w.frame f).prev.toList.map Handle.below) + out) := by
      cases found : w.frames.get? f with
      | none =>
        have here : w.frame f = .absent := by simp [World.frame, found]
        rw [show w.modifyFrame f (fun x => { x with prev := none }) = w by
          simp [World.modifyFrame, Store.modify_of_none _ _ found], here]
        exact Moves.refl.cast rfl (by simp [Frame.absent])
      | some x =>
        have here : w.frame f = x := by simp [World.frame, found]
        rw [here]
        refine one (.editFrame _ found rfl (.inl rfl) (.inl (links f top)) ?_)
        simp only [Frame.held, Frame.heldRecord, Frame.heldBelow, Option.toList_none, List.map_nil,
          List.append_nil, ← Multiset.coe_add]
        exact add_assoc _ _ _
    refine (unlinked.trans (relabel (map_detached_below _ _).symm)).trans (one (.setStack stack ?_))
    simp only [World.modifyFrame, Stack.held, top, Option.toList_some, List.map_cons, List.map_nil]
    exact add_left_comm _ _ _

theorem enter {f : FrameId} (has : w.Has (.frame f)) (links : F.links f) (stack : F.stack)
    (entered : w.enter f = .ok v) : Moves F w out v (.frame f ::ₘ out) := by
  unfold World.enter at entered
  cases pushed : w.push f with
  | error p => rw [pushed] at entered; cases entered
  | ok u =>
    rw [pushed] at entered
    cases entered
    have still : u.Has (.frame f) := by
      unfold World.push at pushed
      split at pushed
      · cases pushed
      split at pushed
      · cases pushed
      cases pushed
      obtain ⟨x, found⟩ := Option.isSome_iff_exists.mp has
      simp [World.Has, World.setStack, World.holdFrame, World.modifyFrame, Store.get?_modify, found]
    exact (push has links stack pushed).trans (hold still fun _ same => by cases same)

theorem leave (f : FrameId) (links : ∀ k, w.stack.current = some k → F.links k) (stack : F.stack)
    (faults : F.faults ∨ w.stack.current = some f) : Moves F w (.frame f ::ₘ out) (w.leave f) out := by
  have popped : Moves F w (.frame f ::ₘ out) w.pop.2
      (↑(w.pop.1.toList.map Handle.frame) + (.frame f ::ₘ out)) := pop links stack
  have judged : Moves F w.pop.2 (↑(w.pop.1.toList.map Handle.frame) + (.frame f ::ₘ out))
      (if w.pop.1 = some f then w.pop.2 else w.pop.2.panic .unbalancedPop)
      (↑(w.pop.1.toList.map Handle.frame) + (.frame f ::ₘ out)) := by
    split
    · exact .refl
    · next other =>
      cases faults with
      | inl faults => exact panic _ faults
      | inr own => simp [World.pop, own] at other
  rw [World.leave_eq]
  refine (popped.trans judged).trans ((drop _ _).cast ?_ rfl)
  simp only [← Multiset.coe_add, Multiset.coe_singleton, add_assoc, Multiset.singleton_add]

end Moves

end Activation
