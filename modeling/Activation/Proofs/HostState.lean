import Activation.Proofs.Changes

/-! # The state of the host

A world carries a state of its host, for the bodies and builders that the host runs. The library never looks at it:
between two calls of the host it stays as it is.

* `World.host_drop`: however many things die, the state of the host does not change.
* `World.host_receive`, `World.host_finish`: nor does it before a body takes over, or after it has stopped.
-/

namespace Activation.World
set_option autoImplicit false

variable {ε : Type}

/-! ## Panics, handles and the lock -/

@[simp] theorem host_panic (w : World ε) (p : Panic) : (w.panic p).host = w.host := by rw [panic_eq]

@[simp] theorem host_catchPanic (w : World ε) : w.catchPanic.2.host = w.host := by rw [catchPanic_eq]

@[simp] theorem host_settlePanic (w : World ε) (result : Resumption) : (settlePanic result w).2.host = w.host := by
  rw [settlePanic_snd, host_catchPanic]

theorem host_cleanUp (w : World ε) {f : World ε → World ε} (kept : ∀ v, (f v).host = v.host) :
    (w.cleanUp f).host = w.host := by
  have caught := w.host_catchPanic
  unfold cleanUp
  split
  · next v found =>
    rw [found] at caught
    exact (kept v).trans caught
  · next p v found =>
    rw [found] at caught
    have again := (f v).host_catchPanic
    split <;>
    · next found' =>
      rw [found'] at again
      exact (again.trans (kept v)).trans caught

theorem host_giveBack (w : World ε) (h : Handle) : (w.giveBack h).1.host = w.host := by
  cases h with
  | object o =>
    obtain ⟨objects, total, events, deaths, fault, eq⟩ := w.giveBackObject_eq o
    simp only [giveBack, eq]
  | _ => rfl

@[simp] theorem host_drop (w : World ε) (hs : List Handle) : (w.drop hs).host = w.host := by
  fun_induction drop w hs with
  | case1 w => rfl
  | case2 w h rest before next ih => exact ih.trans (w.host_giveBack h)

@[simp] theorem host_release (w : World ε) (o : ObjId) : (w.release o).host = w.host := w.host_drop _

@[simp] theorem host_setIp (w : World ε) (f : FrameId) (ip : Int) : (w.setIp f ip).host = w.host := by
  simp only [setIp]
  split <;> rfl

@[simp] theorem host_bindRecord (w : World ε) (f : FrameId) (r : RecordId) : (w.bindRecord f r).2.host = w.host := by
  unfold bindRecord
  split
  · exact w.host_drop _
  · rfl

theorem host_enter {w v : World ε} {f : FrameId} (entered : w.enter f = .ok v) : v.host = w.host := by
  unfold enter push at entered
  split at entered
  · cases entered
  · split at entered <;> cases entered
    rfl

@[simp] theorem host_pop (w : World ε) : w.pop.2.host = w.host := by
  unfold pop
  split <;> rfl

@[simp] theorem host_leave (w : World ε) (f : FrameId) : (w.leave f).host = w.host := by
  rw [leave_eq, host_drop]
  split <;> simp

/-! ## Contexts -/

@[simp] theorem host_clear (w : World ε) (r : RecordId) : (w.clear r).host = w.host := by
  simp only [clear]
  split
  · exact host_drop _ _
  · exact host_drop _ _

@[simp] theorem host_begin (w : World ε) (g : GenId) (throwing : Bool) : (w.begin g throwing).host = w.host := by
  have placed :
      (if w.lastInstr (w.generator g).frame < 0 then w.setIp (w.generator g).frame 0 else w).host = w.host := by
    split
    · exact w.host_setIp _ _
    · rfl
  simp only [begin, emit]
  split <;> exact placed

@[simp] theorem host_suspend (w : World ε) (g : GenId) : (w.suspend g).host = w.host := by
  simp only [suspend, emit]
  split <;> rfl

@[simp] theorem host_vacate (w : World ε) (g : GenId) (final : RecordState) : (w.vacate g final).host = w.host := by
  unfold vacate
  split
  · rfl
  · rfl
  · simp only [retire, host_drop]
    split <;> exact host_clear _ _

@[simp] theorem host_complete (w : World ε) (g : GenId) (final : RecordState) :
    (w.complete g final).host = w.host := by
  have vacant := w.host_vacate g final
  simp only [complete]
  split
  · exact vacant
  · split <;> exact vacant

@[simp] theorem host_abandon (w : World ε) (g : GenId) : (w.abandon g).host = w.host :=
  host_cleanUp _ fun v => v.host_complete g .raised

@[simp] theorem host_settle (w : World ε) (g : GenId) (closing : Bool) (ending : Ending) :
    (w.settle g closing ending).2.host = w.host := by
  cases ending with
  | yields o =>
    simp only [settle]
    split <;> simp
  | returns o =>
    simp only [settle]
    split <;> simp
  | raises e =>
    simp only [settle]
    split
    · simp
    · split <;> simp
  | panics p => simp [settle]

/-! ## Requests -/

@[simp] theorem host_takeBody (w : World ε) (g : GenId) (external : Option RecordId) :
    (w.takeBody g external).host = w.host := by
  cases external with
  | none => rfl
  | some r => exact host_bindRecord _ _ r

@[simp] theorem host_startTurn (w : World ε) (g : GenId) (body : BodyId) (inj : Injection) :
    (w.startTurn g body inj).world.host = w.host := by
  simp only [startTurn]
  split
  · simp [Admission.world]
  · next entered => exact host_enter entered

theorem host_receive (w : World ε) (g : GenId) (inj : Injection) (external : Option RecordId) :
    (w.receive g inj external).world.host = w.host := by
  simp only [receive]
  split
  · exact w.host_drop _
  · exact w.host_drop _
  · exact w.host_drop _
  · simp [Admission.world]
  · split
    · simp [Admission.world]
    · simp

theorem host_conclude (w : World ε) (t : Turn) (ending : Ending) : (w.conclude t ending).2.host = w.host := by
  cases sane : ending.isPanic with
  | true =>
    cases ending with
    | panics p => simp [conclude]
    | _ => cases sane
  | false =>
    rw [w.conclude_of_calm t sane]
    split
    · exact w.host_leave _
    · rw [host_settle]
      exact w.host_leave _

theorem host_finish (w : World ε) (t : Turn) (ending : Ending) : (w.finish t ending).2.host = w.host :=
  (host_settlePanic _ _).trans (w.host_conclude t ending)

end Activation.World
