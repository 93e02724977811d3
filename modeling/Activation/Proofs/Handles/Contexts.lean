import Activation.Proofs.Handles.Frames
import Activation.Proofs.Handles.Objects

/-! # Moves of contexts

Making contexts, linking them, and the parts of a resumption, taken apart into moves.

* `Moves.complete`: a context that finishes gives back its record with all that is in it.
* `Moves.cleanUp`: an operation that runs while a panic is unwinding.
* `Moves.settle`: what a body hands over goes to the caller or is given back.
-/

namespace Activation
set_option autoImplicit false

variable {ε : Type}

namespace World

@[simp] theorem generators_setIp (w : World ε) (f : FrameId) (ip : Int) :
    (w.setIp f ip).generators = w.generators := by
  simp only [World.setIp]
  split <;> rfl

theorem generator_of_get? {w : World ε} {g : GenId} {x : Generator} (found : w.generators.get? g = some x) :
    w.generator g = x := by simp [World.generator, found]

theorem record_of_get? {w : World ε} {r : RecordId} {x : Record} (found : w.records.get? r = some x) :
    w.record r = x := by simp [World.record, found]

theorem frame_of_get? {w : World ε} {f : FrameId} {x : Frame} (found : w.frames.get? f = some x) :
    w.frame f = x := by simp [World.frame, found]

end World

theorem Generator.live_absent : Generator.absent.live = none := rfl

/-- Only a context that is there has a record. -/
theorem World.get?_of_live {w : World ε} {g : GenId} {r : RecordId} (live : (w.generator g).live = some r) :
    w.generators.get? g = some (w.generator g) := by
  cases found : w.generators.get? g with
  | none => simp [World.generator, found, Generator.live_absent] at live
  | some x => rw [World.generator_of_get? found]

theorem World.get?_of_part {β : Type} (p : Frame → Option β) (absent : p .absent = none) {w : World ε} {f : FrameId}
    {b : β} (part : p (w.frame f) = some b) : w.frames.get? f = some (w.frame f) := by
  cases found : w.frames.get? f with
  | none => simp [World.frame, found, absent] at part
  | some x => rw [World.frame_of_get? found]

theorem World.get?_of_prev {w : World ε} {f k : FrameId} (link : (w.frame f).prev = some k) :
    w.frames.get? f = some (w.frame f) := World.get?_of_part Frame.prev rfl link

namespace Moves

variable {F : Footprint} {w v u : World ε} {out mid rest : Multiset Handle}

/-! ## Making and linking contexts -/

theorem addGenerator {x : Generator} (births : F.births) (one_owner : x.owners = 1) :
    Moves F w (↑x.held + out) (w.addGenerator x).2 (.generator (w.addGenerator x).1 ::ₘ out) :=
  (emit _).trans (one (.addGenerator births one_owner))

theorem addCompiled (kind : GeneratorKind) (code : Code) (builder : Option BuilderId) (body : BodyId)
    (births : F.births) :
    Moves F w out (w.addCompiled kind code builder body).2
      (.generator (w.addCompiled kind code builder body).1 ::ₘ out) := by
  have framed : Moves F w out (w.addFrame (.compiled code builder)).2 (.frame w.frames.next ::ₘ out) := by
    refine (one (.addFrame (x := .compiled code builder) rfl ?_ rfl)).cast ?_ rfl
    · intro r bound; cases bound
    · simp [Frame.held, Frame.heldRecord, Frame.heldBelow, Frame.compiled]
  exact framed.trans ((addGenerator births rfl).cast (by simp [Generator.held]) rfl)

theorem addInterpretedFrame {r : RecordId} (attached : F.attached r) :
    Moves F w (.record r ::ₘ out) (w.addInterpretedFrame r).2
      (.frame (w.addInterpretedFrame r).1 ::ₘ out) := by
  refine (one (.addFrame rfl ?_ rfl)).cast ?_ rfl
  · intro s bound
    have eq : r = s := by simpa using bound
    exact eq ▸ attached
  · simp [Frame.held, Frame.heldRecord, Frame.heldBelow]

theorem addInterpreted (kind : GeneratorKind) {r : RecordId} (body : BodyId) (has : w.Has (.record r))
    (attached : F.attached r) (births : F.births) :
    Moves F w (.record r ::ₘ out) (w.addInterpreted kind r body).2
      (.generator (w.addInterpreted kind r body).1 ::ₘ out) := by
  have held : Moves F w (.record r ::ₘ out) (w.holdRecord r) (.record r ::ₘ .record r ::ₘ out) :=
    hold has nofun
  refine held.trans ((addInterpretedFrame attached).trans ((addGenerator births rfl).cast ?_ rfl))
  simp only [Generator.held, Option.toList_some, List.map_cons, List.map_nil, ← Multiset.cons_coe,
    Multiset.coe_nil, Multiset.cons_add, zero_add]
  rfl

theorem linkAwaiter (g : GenId) (a : Option GenId) : Moves F w out (w.linkAwaiter g a) out :=
  (setFrameAwaiter _ _).trans (editGenerator g _ (fun _ => rfl) (fun _ => rfl) (fun _ => rfl)
    (fun _ _ => rfl) (.inr fun _ => ⟨rfl, rfl, rfl⟩))

theorem setAwaiter (g : GenId) (a : Option GenId) : Moves F w out (w.setAwaiter g a).2 out := by
  unfold World.setAwaiter
  split
  · exact linkAwaiter g a
  · exact .refl

theorem reportWalk (r : Except WalkError Nat) : Moves F w out (w.reportWalk r) out := by
  unfold World.reportWalk
  split
  · exact emit _
  · exact emit _
  · exact .refl

/-! ## Changes of state -/

theorem begin (g : GenId) (throwing : Bool) (context : F.contexts g)
    (framed : ∀ r, (w.frame (w.generator g).frame).record = some r → F.records r)
    (records : ∀ r, (w.generator g).live = some r → F.records r) :
    Moves F w out (w.begin g throwing) out := by
  have placed : Moves F w out
      (if w.lastInstr (w.generator g).frame < 0 then w.setIp (w.generator g).frame 0 else w) out := by
    split
    · exact setIp _ _ fun r bound => .inl (framed r bound)
    · exact .refl
  have same : (if w.lastInstr (w.generator g).frame < 0 then w.setIp (w.generator g).frame 0
      else w).generators = w.generators := by
    split <;> simp
  simp only [World.begin]
  generalize (if w.lastInstr (w.generator g).frame < 0 then w.setIp (w.generator g).frame 0 else w) = v
    at placed same ⊢
  refine placed.trans (Moves.trans ?_ (emit _))
  split
  · next state point backing =>
    refine editGenerator g _ (fun _ => rfl) (fun _ => rfl) (fun _ => rfl) ?_ (.inl context)
    intro x found
    rw [same] at found
    have compiled : x.backing = .compiled state point := by rw [← World.generator_of_get? found, backing]
    simp only [Generator.live, compiled]
  · next r backing => exact setState r .executing (records r (by simp [Generator.live, backing]))
  · exact .refl

theorem suspend (g : GenId) (context : F.contexts g) (records : ∀ r, (w.generator g).live = some r → F.records r) :
    Moves F w out (w.suspend g) out := by
  have counted : Moves F w out
      (w.modifyGenerator g fun x => { x with yields := (w.generator g).yields + 1 }) out :=
    editGenerator g _ (fun _ => rfl) (fun _ => rfl) (fun _ => rfl) (fun _ _ => rfl) (.inl context)
  simp only [World.suspend]
  refine counted.trans (Moves.trans ?_ (emit _))
  split
  · next state point backing =>
    refine editGenerator g _ (fun _ => rfl) (fun _ => rfl) (fun _ => rfl) ?_ (.inl context)
    intro x found
    have compiled : x.backing = .compiled state point := by
      rw [← World.generator_of_get? found, ← backing]
      exact World.generator_modifyGenerator Generator.backing w g g _ fun _ => rfl
    simp only [Generator.live, compiled]
  · next r backing => exact setState r .suspended (records r (by simp [Generator.live, backing]))
  · exact .refl

theorem retire {g : GenId} {r : RecordId} (final : RecordState) (context : F.contexts g)
    (live : (w.generator g).live = some r) (records : F.records r) :
    Moves F w out (w.retire g r final) out := by
  have found := World.get?_of_live live
  have freed : Moves F w out (w.modifyGenerator g fun x => { x with backing := .interpreted none })
      (.record r ::ₘ out) := by
    refine one (.editGenerator _ found rfl rfl rfl (.inl context) (.inr rfl) ?_)
    have gone : ({ w.generator g with backing := .interpreted none } : Generator).live = none := rfl
    simp only [Generator.held_eq, live, gone, Option.toList_some, Option.toList_none,
      List.map_cons, List.map_nil, ← Multiset.cons_coe, Multiset.coe_nil, Multiset.cons_add, zero_add]
  have cleared := freed.trans (clear r records)
  simp only [World.retire]
  refine cleared.trans (Moves.trans ?_ (dropOne _ (.record r)))
  split
  · exact .refl
  · exact setState r final records

theorem vacate (g : GenId) (final : RecordState) (context : F.contexts g)
    (records : ∀ r, (w.generator g).live = some r → F.records r) :
    Moves F w out (w.vacate g final) out := by
  unfold World.vacate
  split
  · next state point backing =>
    refine editGenerator g _ (fun _ => rfl) (fun _ => rfl) (fun _ => rfl) ?_ (.inl context)
    intro x found
    have compiled : x.backing = .compiled state point := by rw [← World.generator_of_get? found, backing]
    simp only [Generator.live, compiled]
  · exact .refl
  · next r backing =>
    have live : (w.generator g).live = some r := by simp [Generator.live, backing]
    exact retire final context live (records r live)

theorem complete (g : GenId) (final : RecordState) (context : F.contexts g)
    (records : ∀ r, (w.generator g).live = some r → F.records r) :
    Moves F w out (w.complete g final) out := by
  simp only [World.complete]
  refine (vacate g final context records).trans ?_
  split
  · exact .refl
  · split
    · exact (linkAwaiter g none).trans (emit _)
    · exact emit _

theorem cleanUp (f : World ε → World ε) (faults : F.faults) (ran : ∀ v : World ε, v.generators = w.generators →
      Moves F v out (f v) out) : Moves F w out (w.cleanUp f) out := by
  have caught : Moves F w out w.catchPanic.2 out := catchPanic faults
  have same : w.catchPanic.2.generators = w.generators := by rw [World.catchPanic_eq]
  unfold World.cleanUp
  -- a panic of the operation itself, on top of the one that was caught before, is a fault of its own
  cases first : w.catchPanic with
  | mk p v =>
    rw [first] at caught same
    have inner := caught.trans (ran v same)
    cases p with
    | none => exact inner
    | some p =>
      have again : Moves F w out (f v).catchPanic.2 out := inner.trans (catchPanic faults)
      simp only
      cases second : (f v).catchPanic with
      | mk q u =>
        rw [second] at again
        cases q with
        | none => exact again.trans (one (.fault faults _))
        | some q => exact again.trans (one (.fault faults _))

theorem abandon (g : GenId) (context : F.contexts g) (faults : F.faults)
    (records : ∀ r, (w.generator g).live = some r → F.records r) :
    Moves F w out (w.abandon g) out := by
  unfold World.abandon
  refine (emit _).trans (cleanUp _ faults fun v same => complete g .raised context fun r live => records r ?_)
  rw [← live]
  simp only [World.generator, same, World.emit]

/-! ## Requests -/

theorem mintNothing (lasting : w.Immortal nothing) : Moves F w out w (.object nothing ::ₘ out) :=
  one (.mint lasting)

theorem settle (g : GenId) (closing : Bool) (ending : Ending) (calm : ending.isPanic = false)
    (context : F.contexts g) (records : ∀ r, (w.generator g).live = some r → F.records r)
    (lasting : w.Immortal nothing) :
    Moves F w (↑ending.held + out) (w.settle g closing ending).2
      (↑(w.settle g closing ending).1.held + out) := by
  cases ending with
  | yields o =>
    have paused : Moves F w (↑(Ending.yields o).held + out) (w.suspend g)
        (.object o ::ₘ out) := (suspend g context records).cast (by simp [Ending.held]) rfl
    simp only [World.settle]
    split
    · exact (paused.trans (release _ o)).cast rfl (by simp [Resumption.held, Exception.held,
        Exception.runtimeError])
    · exact paused.cast rfl (by simp [Resumption.held])
  | returns o =>
    have finished : Moves F w (↑(Ending.returns o).held + out) (w.complete g .returned)
        (.object o ::ₘ out) := (complete g .returned context records).cast (by simp [Ending.held]) rfl
    simp only [World.settle]
    split
    · have given := finished.trans (release _ o)
      exact (given.trans (mintNothing (given.immortal lasting))).cast rfl (by simp [Resumption.held])
    · exact finished.cast rfl (by simp [Resumption.held])
  | raises e =>
    have finished : Moves F w (↑e.held + out) (w.complete g .raised) (↑e.held + out) :=
      complete g .raised context records
    have given := finished.trans (drop _ e.held)
    simp only [World.settle, Ending.held]
    split
    · exact (given.trans (mintNothing (given.immortal lasting))).cast rfl (by simp [Resumption.held])
    · split
      · exact given.cast rfl (by simp [Resumption.held, Exception.held, Exception.runtimeError])
      · exact finished
  | panics p => cases calm

theorem startTurn_answered {g : GenId} {body : BodyId} {inj : Injection} {result : Resumption}
    (context : F.contexts g) (faults : F.faults) (records : ∀ r, (w.generator g).live = some r → F.records r)
    (answered : w.startTurn g body inj = .answered result v) :
    Moves F w (↑inj.held + out) v (↑result.held + out) := by
  simp only [World.startTurn] at answered
  split at answered
  · next p _ =>
    cases answered
    have failed : Moves F w (↑inj.held + out) (w.panic p) (↑inj.held + out) := panic p faults
    refine (failed.trans ((abandon g context faults ?_).trans (drop _ inj.held))).cast rfl
      (by simp [Resumption.held])
    rw [World.panic_eq]
    exact records
  · cases answered

end Moves

end Activation
