import Activation.Proofs.Lifecycle.Stacking

/-! # What a context answers

The answer to a request is decided by the stage of the context, its kind, and the request; the backing has no say
in it.

* `Stage.answer`: the answer to a request, if it does not need the body.
* `Ending.settled`: the answer to a request whose body has stopped.
* `Step.answer`, `Step.no_answer`, `Step.settled`: requests are answered so.
-/

namespace Activation
set_option autoImplicit false

variable {ε : Type}

/-- The answer to a request, where `valued` says whether a value is sent that is not the missing one. A context
that is asked for something by its own body refuses; one that has not begun takes no value. -/
def Stage.answer (kind : GeneratorKind) (inj : Injection) (valued : Bool) : Stage → Option Resumption
  | .fresh =>
    if valued then some (.refused (.nonNoneToJustStarted kind))
    else if inj.isClosing then some (.done (.returned nothing))
    else none
  | .stepping _ => some (.refused (.alreadyExecuting kind))
  | .suspended => none
  | .finished => some (inj.farewell kind)

/-- The answer to a request whose body has stopped. A body that was to close may not yield, and its value is not
handed on; a stop signal that escapes from a body is an error. -/
def Ending.settled (kind : GeneratorKind) (closing : Bool) : Ending → Resumption
  | .yields o =>
    if closing then .done (.raised (.runtimeError (kind.name ++ " ignored GeneratorExit")))
    else .done (.yielded o)
  | .returns o => if closing then .done (.returned nothing) else .done (.returned o)
  | .raises e =>
    if closing && (e.kind = .stopIteration || e.kind = .generatorExit) then .done (.returned nothing)
    else if e.kind = .stopIteration then
      .done (.raised (.runtimeError (kind.name ++ " raised StopIteration")))
    else .done (.raised e)
  | .panics p => .panicked p

/-! ## The end of a turn -/

namespace World

variable {w : World ε} {g : GenId} {out : Multiset Handle}

theorem fault_stopped (acc : Accounted w out) (g : GenId) (ending : Ending) :
    (w.stopped g ending).fault = w.fault := by
  cases ending with
  | yields o => exact (Moves.suspend g trivial fun _ _ => trivial : Moves .calm w out _ out).fault_eq acc id
  | returns o => exact acc.fault_complete g .returned
  | raises e => exact acc.fault_complete g .raised
  | panics p => rfl

theorem kind_stopped {ending : Ending} (has : (w.stopped g ending).Has (.generator g)) :
    ((w.stopped g ending).generator g).kind = (w.generator g).kind := by
  cases ending with
  | yields o => exact congrArg Status.kind (status_suspend (has_of_suspend has))
  | returns o => exact congrArg Status.kind (status_complete .returned has)
  | raises e => exact congrArg Status.kind (status_complete .raised has)
  | panics p => rfl

theorem settle_fst {closing : Bool} {ending : Ending} (sane : ending.isPanic = false)
    (calm : (w.stopped g ending).fault = none) (has : (w.stopped g ending).Has (.generator g)) :
    (w.settle g closing ending).1 = ending.settled (w.generator g).kind closing := by
  have kind := kind_stopped has
  have still := isUnwinding_of_none calm
  cases ending with
  | yields o =>
    simp only [stopped] at kind
    simp only [settle, Ending.settled, kind]
    split <;> rfl
  | returns o =>
    simp only [stopped] at still
    simp only [settle, Ending.settled, still, Bool.or_false]
    split <;> rfl
  | raises e =>
    simp only [stopped] at kind still
    simp only [settle, Ending.settled, kind, still, Bool.false_or]
    split
    · rfl
    · split <;> rfl
  | panics p => cases sane

theorem finish_fst {t : Turn} {ending : Ending} (acc : Accounted w (.frame t.frame ::ₘ (↑ending.held + out)))
    (lasting : w.Immortal nothing) (calm : w.fault = none) (balanced : w.stack.current = some t.frame)
    (has : (w.finish t ending).2.Has (.generator t.context)) :
    (w.finish t ending).1 = ending.settled (w.generator t.context).kind t.closing := by
  cases sane : ending.isPanic with
  | true =>
    cases ending with
    | panics p =>
      unfold finish
      simp only [conclude]
      rw [settlePanic_of_unwinding (acc.fault_panicked calm balanced p t.context)]
      rfl
    | _ => cases sane
  | false =>
    have quiet := acc.fault_settle sane lasting calm balanced
    rw [finish_of_calm acc calm balanced sane, settlePanic_of_none quiet] at has ⊢
    obtain ⟨hs, dropped⟩ := (w.restored t).settle_snd t.context t.closing sane
    simp only [dropped] at has
    obtain ⟨stopped, -, left⟩ := has_restored has
    have kind : ((w.restored t).generator t.context).kind = (w.generator t.context).kind :=
      congrArg Status.kind (status_restored left)
    have calm' : ((w.restored t).stopped t.context ending).fault = none :=
      (fault_stopped (acc.restored balanced) _ _).trans ((acc.fault_leave balanced).trans calm)
    rw [settle_fst sane calm' stopped, kind]

end World

/-! ## Steps -/

namespace Step

variable {c d : Config ε} {g : GenId} {t : Turn} {inj : Injection} {external : Option RecordId}
  {ending : Ending} {result : Resumption} {past : List Incident}

theorem settled (sound : c.Sound) (step : Step c (.ended t ending result) d) :
    result = ending.settled (c.world.generator t.context).kind t.closing := by
  have has := (step.has_ended sound).2
  cases step with
  | ended innermost balanced takes =>
    have acc := sound.accounted
    rw [c.outside_of_turn innermost takes] at acc
    exact World.finish_fst acc sound.nothing sound.calm balanced has

/-- A request that is handed to the body has no answer yet. -/
theorem no_answer (sound : c.Sound) (step : Step c (.entered t inj external) d)
    (stage : c.InStage t.context past) :
    (stageOf past).answer (c.world.generator t.context).kind inj (c.world.sendsValue inj) = none := by
  obtain ⟨body, judged, -⟩ := step.entered_status sound
  cases judged with
  | entered idle going fits =>
    have runnable := stage.runnable idle going
    rw [stage.shows.isJustStarted, decide_eq_true_eq] at fits
    cases reached : stageOf past with
    | fresh =>
      obtain ⟨missing, calling⟩ := fits reached
      simp [Stage.answer, missing, calling]
    | suspended => rfl
    | _ => rw [reached] at runnable; cases runnable

/-- Where the frames of contexts at rest are off the stack, every other request is answered by its stage. -/
theorem answer (sound : c.Sound) (stacked : c.Stacked) (step : Step c (.answered g inj external result) d)
    (stage : c.InStage g past) :
    (stageOf past).answer (c.world.generator g).kind inj (c.world.sendsValue inj) = some result := by
  have finished : c.world.isCompleted g = true → stageOf past = .finished := fun completed => by
    rw [stage.shows.isCompleted, decide_eq_true_eq] at completed
    exact completed
  have fresh : c.world.isJustStarted g = true → stageOf past = .fresh := fun started => by
    rw [stage.shows.isJustStarted, decide_eq_true_eq] at started
    exact started
  cases step.reply sound with
  | refused judged =>
    cases judged with
    | executing executing =>
      rw [stage.isExecuting] at executing
      cases reached : stageOf past with
      | stepping throwing => rfl
      | _ => rw [reached] at executing; cases executing
    | exhausted _ completed calling =>
      rw [finished completed]
      simp [Stage.answer, Injection.farewell, calling]
    | valued _ _ started sends =>
      rw [fresh started]
      simp [Stage.answer, sends]
    | bodiless idle going _ busy =>
      -- a context at rest has its body
      have ready := stage.ready (stage.runnable idle going)
      rw [busy] at ready
      cases ready
  | ignored judged =>
    cases judged with
    | ignored _ completed closing =>
      rw [finished completed]
      simp [Stage.answer, Injection.farewell, closing]
  | finished judged =>
    cases judged with
    | finished _ _ started closing =>
      have missing : c.world.sendsValue inj = false := by
        cases inj with
        | close => rfl
        | _ => cases closing
      rw [fresh started]
      simp [Stage.answer, missing, closing]
  | stuck judged linked =>
    cases judged with
    | entered idle going =>
      exact absurd linked (stacked.unlinked (step.has_asked sound).1 (stage.rest (stage.runnable idle going)))

end Step

end Activation
