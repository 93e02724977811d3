import Activation.Proofs.Lifecycle.Bodies
import Activation.Proofs.Lifecycle.Losses
import Activation.Proofs.Stack.Neutral

/-! # Closing a context

A body that is asked to close sees an exception like any other, and what it makes of it decides the answer. A stop
signal never gets out of a body as such.

* `Host.Plays`: the host runs a body as a program, which may stray.
* `Host.reaction`: what the body does about a request, if it gets to run.
* `World.Closes`: the ways in which a request to close can end.
* `Config.Request`, `Config.request`: how a request of a program goes, unless it ends the program.
* `closing_discipline`: what all requests come to, and those to close.
-/

namespace Activation
set_option autoImplicit false

variable {ε : Type}

/-- The host runs a body as a program, which hands over what it ends with. -/
structure Host.Plays (host : Host ε) (rule : Config ε → Label → Prop) (c : Config ε) (g : GenId) (t : Turn)
    (inj : Injection) (ls : List Label) (d : Config ε) : Prop where
  body : Kept rule c ls d
  world : d.world = (host.step t.body g inj.input c.world).2
  turns : d.turns = c.turns
  takes : ∃ rest : Multiset Handle, d.owned = ↑(host.step t.body g inj.input c.world).1.held + rest

/-- What the body does about a request, if it gets to run. -/
def Host.reaction (host : Host ε) (w : World ε) (g : GenId) (inj : Injection) (external : Option RecordId) :
    Option Ending :=
  match w.receive g inj external with
  | .answered _ _ => none
  | .entered t v => some (host.step t.body g inj.input v).1

/-- How a request to close ends, with what the body did about it. -/
structure World.Closes (v : World ε) (g : GenId) (kind : GeneratorKind) (said : Option Ending)
    (result : Resumption) : Prop where
  ends : result = .done (.returned nothing) ∧ v.isCompleted g = true ∨
    result = .done (.raised (.runtimeError (kind.name ++ " ignored GeneratorExit"))) ∧ v.Waits g ∨
    ∃ e, result = .done (.raised e) ∧ v.isCompleted g = true
  ignored : (∃ o, said = some (.yields o)) ↔
    result = .done (.raised (.runtimeError (kind.name ++ " ignored GeneratorExit"))) ∧ v.Waits g
  failed : ∀ e, (said = some (.raises e) ∧ e.kind ≠ .generatorExit ∧ e.kind ≠ .stopIteration) ↔
    result = .done (.raised e) ∧ v.isCompleted g = true

namespace World.Closes

variable {v : World ε} {g : GenId} {kind : GeneratorKind} {said : Option Ending} {e : Exception}

/-- The body does as it is told, or does not get to run. -/
theorem obeyed (completed : v.isCompleted g = true) (stops : ∀ o, said ≠ some (.yields o))
    (fine : ∀ e, said = some (.raises e) → e.kind = .generatorExit ∨ e.kind = .stopIteration) :
    v.Closes g kind said (.done (.returned nothing)) where
  ends := .inl ⟨rfl, completed⟩
  ignored := ⟨fun ⟨o, yields⟩ => absurd yields (stops o), fun ⟨raised, _⟩ => by cases raised⟩
  failed e := by
    refine ⟨fun ⟨raises, exit, stop⟩ => ?_, fun ⟨raised, _⟩ => by cases raised⟩
    rcases fine e raises with kind | kind
    · exact absurd kind exit
    · exact absurd kind stop

theorem defied {o : ObjId} (waits : v.Waits g) :
    v.Closes g kind (some (.yields o))
      (.done (.raised (.runtimeError (kind.name ++ " ignored GeneratorExit")))) where
  ends := .inr (.inl ⟨rfl, waits⟩)
  ignored := ⟨fun _ => ⟨rfl, waits⟩, fun _ => ⟨o, rfl⟩⟩
  failed e := by
    refine ⟨fun ⟨raises, _⟩ => ?_, fun ⟨_, completed⟩ => ?_⟩
    · cases raises
    · rw [waits.going] at completed
      cases completed

theorem raised (completed : v.isCompleted g = true) (exit : e.kind ≠ .generatorExit)
    (stop : e.kind ≠ .stopIteration) : v.Closes g kind (some (.raises e)) (.done (.raised e)) where
  ends := .inr (.inr ⟨e, rfl, completed⟩)
  ignored := by
    refine ⟨fun ⟨_, yields⟩ => ?_, fun ⟨_, waits⟩ => ?_⟩
    · cases yields
    · have going := waits.going
      rw [completed] at going
      cases going
  failed f := by
    refine ⟨fun ⟨raises, _⟩ => ?_, fun ⟨raised, _⟩ => ?_⟩
    · cases raises
      exact ⟨rfl, completed⟩
    · cases raised
      exact ⟨rfl, exit, stop⟩

end World.Closes

/-! ## Turns that close -/

theorem Ending.settled_ne_stop {kind : GeneratorKind} {closing : Bool} {ending : Ending} {e : Exception}
    (raised : ending.settled kind closing = .done (.raised e)) : e.kind ≠ .stopIteration := by
  intro stop
  cases ending with
  | yields o =>
    cases closing with
    | true =>
      cases raised
      cases stop
    | false => cases raised
  | returns o => cases closing <;> cases raised
  | raises f =>
    simp only [settled] at raised
    split at raised
    · cases raised
    · split at raised
      · cases raised
        cases stop
      · next other =>
        cases raised
        exact other stop
  | panics p => cases raised

namespace Step

variable {c d : Config ε} {g : GenId} {t : Turn} {ending : Ending} {inj : Injection} {external : Option RecordId}
  {result : Resumption}

theorem waits {o : ObjId} (sound : c.Sound) (busy : c.Busy) (step : Step c (.ended t (.yields o) result) d) :
    d.world.Waits t.context := by
  obtain ⟨-, -, -, status⟩ := step.ended_status sound
  have after : (d.world.generator t.context).backing =
      (c.world.generator t.context).backing.paused ((c.world.generator t.context).yields + 1) :=
    congrArg Status.backing status
  have count : (d.world.generator t.context).yields = (c.world.generator t.context).yields + 1 :=
    congrArg Status.yields status
  have idle := step.yielded_released sound rfl
  cases backing : (c.world.generator t.context).backing with
  | compiled state n =>
    rw [backing] at after
    refine ⟨idle, ?_, ?_⟩
    · simp [World.isCompleted, after, Backing.paused]
    · simp [World.yieldPoint, after, Backing.paused]
  | interpreted live =>
    rw [backing] at after
    cases live with
    | none =>
      have executing := step.ended_executing sound busy
      rw [World.isExecuting, backing] at executing
      cases executing
    | some r =>
      obtain ⟨suspended, -⟩ := step.ended_record sound rfl backing
      refine ⟨idle, ?_, ?_⟩
      · simp [World.isCompleted, after, Backing.paused, suspended, RecordState.isCompleted]
      · simp [World.yieldPoint, after, Backing.paused, suspended, count]

theorem ended_closes (sound : c.Sound) (busy : c.Busy) (step : Step c (.ended t ending result) d)
    (closing : t.closing = true) (calm : result.isPanic = false) :
    d.world.Closes t.context (c.world.generator t.context).kind (some ending) result := by
  have stops : ending.isYield = false → d.world.isCompleted t.context = true := fun stops =>
    (step.completes sound (l := .ended t ending result) ⟨rfl, stops⟩).2.2.isCompleted
  have settled := step.settled sound
  rw [closing] at settled
  subst settled
  cases ending with
  | yields o => exact .defied (step.waits sound busy)
  | returns o => exact .obeyed (stops rfl) (fun _ yields => by cases yields) fun _ raises => by cases raises
  | raises e =>
    by_cases exit : e.kind = .generatorExit ∨ e.kind = .stopIteration
    · have settled : (Ending.raises e).settled (c.world.generator t.context).kind true = .done (.returned nothing) := by
        rcases exit with kind | kind <;> simp [Ending.settled, kind]
      rw [settled]
      refine .obeyed (stops rfl) (fun _ yields => by cases yields) fun f raises => ?_
      cases raises
      exact exit
    · obtain ⟨exit, stop⟩ := not_or.mp exit
      have settled : (Ending.raises e).settled (c.world.generator t.context).kind true = .done (.raised e) := by
        simp [Ending.settled, exit, stop]
      rw [settled]
      exact .raised (stops rfl) exit stop
  | panics p => cases calm

/-- A context at rest has its body, so it does not refuse to close. -/
theorem answered_closes (sound : c.Sound) (busy : c.Busy) (step : Step c (.answered g .close external result) d)
    (idle : c.world.isExecuting g = false) (calm : result.isPanic = false) :
    d.world.Closes g (c.world.generator g).kind none result := by
  have obeyed : d.world.isCompleted g = true → d.world.Closes g (c.world.generator g).kind none
      (.done (.returned nothing)) := fun completed => .obeyed completed (fun _ yields => by cases yields)
        fun _ raises => by cases raises
  cases step.reply sound with
  | refused judged =>
    cases judged with
    | executing executing =>
      rw [idle] at executing
      cases executing
    | exhausted _ _ calling => cases calling
    | valued _ _ _ sends => cases sends
    | bodiless _ going _ body =>
      rcases busy.out g (step.has_asked sound).1 body with executing | done
      · rw [idle] at executing
        cases executing
      · rw [done.isCompleted] at going
        cases going
  | ignored judged steady status =>
    cases judged with
    | ignored _ completed =>
      exact obeyed ((steady.isCompleted_eq sound.accounted (step.sound sound).accounted status).trans completed)
  | finished _ status => exact obeyed (World.Done.of_closed status).isCompleted
  | stuck => cases calm

end Step

/-! ## Whole requests -/

theorem Run.kind_eq {c d : Config ε} {ls : List Label} {g : GenId} (sound : c.Sound)
    (given : g < c.world.generators.next) (run : Run c ls d) (has : d.world.Has (.generator g)) :
    (d.world.generator g).kind = (c.world.generator g).kind := by
  suffices g < d.world.generators.next ∧
      (d.world.Has (.generator g) → (d.world.generator g).kind = (c.world.generator g).kind) from this.2 has
  clear has
  induction run with
  | nil => exact ⟨given, fun _ => rfl⟩
  | snoc init step ih =>
    obtain ⟨given', same⟩ := ih
    have sound' := init.sound sound
    refine ⟨given'.trans_le (step.next_le sound'), fun has => ?_⟩
    obtain ⟨before, kind, -⟩ := step.keeps_context sound' given' has
    exact kind.trans (same before)

theorem World.catchPanic_of_uncaught {w : World ε} (fault : w.fault = some .uncaught) :
    w.catchPanic = (none, w) := by simp only [catchPanic, fault]

/-- A body that strays while it panics ends the program. -/
theorem Accounted.fault_uncaught {w : World ε} {out : Multiset Handle} {f : FrameId}
    (acc : Accounted w (.frame f ::ₘ out)) (calm : w.fault = none) (unbalanced : w.stack.current ≠ some f)
    (p : Panic) (g : GenId) : (((w.panic p).leave f).abandon g).fault = some .uncaught := by
  rw [World.panic_of_none calm]
  have acc' : Accounted { w with fault := some (.unwinding p) } (.frame f ::ₘ out) := acc.setFault _
  generalize failed : { w with fault := some (.unwinding p) } = u at acc' ⊢
  have popped : Accounted u.pop.2 (↑(u.pop.1.toList.map Handle.frame) + (.frame f ::ₘ out)) :=
    ((Moves.pop (F := .calm) (fun _ _ => trivial) trivial).accounted acc').1
  have fault : u.pop.2.fault = some (.unwinding p) := by rw [u.fault_pop, ← failed]
  have other : ¬ u.pop.1 = some f := by rw [World.pop_fst, ← failed]; exact unbalanced
  have twice : u.pop.2.panic .unbalancedPop = { u.pop.2 with fault := some .uncaught } := by
    simp only [World.panic, fault]
  have panicking : Accounted { u.pop.2 with fault := some .uncaught }
      (↑(u.pop.1.toList.map Handle.frame ++ [Handle.frame f]) + out) := by
    rw [← Multiset.coe_add, add_assoc]
    exact popped.setFault _
  have left : Accounted (u.leave f) out ∧ (u.leave f).fault = some .uncaught := by
    rw [World.leave_eq, if_neg other, twice]
    exact ⟨((Moves.drop (F := .calm) _ _).accounted panicking).1, panicking.fault_drop⟩
  unfold World.abandon
  generalize told : (u.leave f).emit _ = v
  have vacc : Accounted v out := told ▸ left.1.emit _
  have vfault : v.fault = some .uncaught := by rw [← told]; exact left.2
  simp only [World.cleanUp, World.catchPanic_of_uncaught vfault]
  exact (vacc.fault_complete g .raised).trans vfault

/-- A request of a program, with what the body did about it. -/
inductive Config.Request (c : Config ε) (g : GenId) (inj : Injection) (external : Option RecordId) :
    Option Ending → Resumption → Config ε → Prop where
  | answered {result : Resumption} {d : Config ε} (step : Step c (.answered g inj external result) d) :
      Request c g inj external none result d
  | ended {t : Turn} {ending : Ending} {result : Resumption} {ls : List Label} {e d : Config ε}
      (during : Kept unwritten c ls e) (step : Step e (.ended t ending result) d) (own : t.context = g)
      (asked : t.closing = inj.isClosing) : Request c g inj external (some ending) result d
  | strayed {t : Turn} {ending : Ending} {result : Resumption} {ls : List Label} {e d : Config ε}
      (during : Kept unwritten c ls e) (step : Step e (.strayed t ending result) d) :
      Request c g inj external (some ending) (.panicked .unbalancedPop) d

theorem World.finish_strayed {w : World ε} {t : Turn} {p : Panic} {out : Multiset Handle}
    (acc : Accounted w (.frame t.frame ::ₘ out)) (calm : w.fault = none)
    (unbalanced : w.stack.current ≠ some t.frame) :
    (w.finish t (.panics p)).1.isPanic = true ∧ (w.finish t (.panics p)).2.fault ≠ none := by
  have fault := acc.fault_uncaught calm unbalanced p t.context
  simp only [finish, conclude, settlePanic, catchPanic_of_uncaught fault]
  refine ⟨rfl, ?_⟩
  rw [fault]
  exact Option.some_ne_none _

namespace Config

variable {c d : Config ε} {g : GenId} {inj : Injection} {external : Option RecordId} {rest : Multiset Handle}
  {program : Host ε} {said : Option Ending} {result : Resumption} {v : World ε}

theorem request (sound : c.Sound)
    (takes : c.owned = .generator g ::ₘ ((inj.offered external : Multiset Handle) + rest))
    (plays : ∀ t w, c.world.receive g inj external = .entered t w → ∃ ms d,
      program.Plays unwritten (c.under t w (↑inj.held + rest)) g t inj ms d)
    (answer : c.world.resume program g inj external = (result, v)) :
    (∃ left d, d.world = v ∧ d.owned = .generator g ::ₘ left ∧
      c.Request g inj external (program.reaction c.world g inj external) result d) ∨
    result.isPanic = true ∧ v.fault ≠ none := by
  cases received : c.world.receive g inj external with
  | answered _ w =>
    have said : program.reaction c.world g inj external = none := by simp only [Host.reaction, received]
    simp only [World.resume, World.attempt, received] at answer
    have step := Step.answered takes received
    rw [answer] at step
    rw [said]
    exact .inl ⟨_, _, rfl, rfl, .answered step⟩
  | entered t w =>
    obtain ⟨ms, e, plays⟩ := plays t w received
    obtain ⟨left, held⟩ := plays.takes
    have begins : Step c (.entered t inj external) (c.under t w (↑inj.held + rest)) := .entered takes received
    have sound' := plays.body.run.sound (begins.sound sound)
    have begun : Kept unwritten c _ _ := .single begins trivial
    have during := begun.trans plays.body
    obtain ⟨_, -, turn, -⟩ :=
      World.receive_entered (sound.of_request takes).2 (Multiset.mem_cons_self _ _) sound.calm received
    have own : t.context = g := by rw [turn]
    have said : program.reaction c.world g inj external = some (program.step t.body g inj.input w).1 := by
      simp only [Host.reaction, received]
    have finish : e.world.finish t (program.step t.body g inj.input w).1 = (result, v) := by
      rw [← answer]
      simp only [World.resume, World.attempt, received, World.finish, plays.world]
      rfl
    rw [said]
    change e.owned = ↑(program.step t.body g inj.input w).1.held + left at held
    generalize (program.step t.body g inj.input w).1 = ending at held finish ⊢
    by_cases balanced : e.world.stack.current = some t.frame
    · have step := Step.ended plays.turns balanced held
      rw [finish, own] at step
      exact .inl ⟨_, _, rfl, rfl, .ended during step own (by rw [turn])⟩
    · cases sane : ending.isPanic with
      | true =>
        cases ending with
        | panics p =>
          have acc := sound'.accounted
          rw [e.outside_of_turn plays.turns held] at acc
          have aborted := World.finish_strayed (p := p) acc sound'.calm balanced
          rw [finish] at aborted
          exact .inr aborted
        | _ => cases sane
      | false =>
        have step := Step.strayed plays.turns balanced sane held
        have panicked := step.strayed_result sound'
        rw [finish, own] at step
        rw [finish] at panicked
        cases panicked
        exact .inl ⟨_, _, rfl, rfl, .strayed during step⟩

namespace Request

theorem run (request : c.Request g inj external said result d) : ∃ ls, Kept unwritten c ls d := by
  cases request with
  | answered step => exact ⟨_, .single step trivial⟩
  | ended during step => exact ⟨_, .snoc during step trivial⟩
  | strayed during step => exact ⟨_, .snoc during step trivial⟩

theorem settled {ending : Ending} (sound : c.Sound) (has : c.world.Has (.generator g))
    (request : c.Request g inj external (some ending) result d) (calm : result.isPanic = false) :
    result = ending.settled (c.world.generator g).kind inj.isClosing := by
  cases request with
  | ended during step own asked =>
    subst own
    have sound' := during.run.sound sound
    rw [step.settled sound', asked, during.run.kind_eq sound (World.lt_next_of_has has) (step.has_ended sound').1]
  | strayed => cases calm

theorem ne_stop {e : Exception} (sound : c.Sound) (has : c.world.Has (.generator g))
    (request : c.Request g inj external said (.done (.raised e)) d) : e.kind ≠ .stopIteration := by
  cases said with
  | none =>
    cases request with
    | answered step => cases step.reply sound
  | some ending => exact Ending.settled_ne_stop (request.settled sound has rfl).symm

theorem closes (sound : c.Sound) (orderly : c.Orderly) (busy : c.Busy) (has : c.world.Has (.generator g))
    (idle : c.world.isExecuting g = false) (request : c.Request g .close external said result d)
    (calm : result.isPanic = false) : d.world.Closes g (c.world.generator g).kind said result := by
  cases request with
  | answered step => exact step.answered_closes sound busy idle calm
  | ended during step own asked =>
    subst own
    have sound' := during.run.sound sound
    rw [← during.run.kind_eq sound (World.lt_next_of_has has) (step.has_ended sound').1]
    exact step.ended_closes sound' (during.busy sound orderly busy) asked calm
  | strayed => cases calm

end Request

end Config

/-! ## Later requests -/

namespace World

variable {w : World ε} {g : GenId} {inj : Injection} {external : Option RecordId} {out : Multiset Handle}

/-- A request to close a context that has completed does nothing but give back what it brought along. -/
theorem close_of_completed (completed : w.isCompleted g = true)
    (acc : Accounted w (↑(Injection.close.offered external) + out)) (calm : w.fault = none) (program : Host ε) :
    program.reaction w g .close external = none ∧
      w.resume program g .close external = (.done (.returned nothing), w.drop (Injection.close.offered external)) := by
  have received : w.receive g .close external =
      .answered (.done (.returned nothing)) (w.drop (Injection.close.offered external)) := by
    simp [receive, verdict, not_executing_of_completed completed, completed, Injection.isClosing, Injection.offered,
      Injection.held]
  constructor
  · simp only [Host.reaction, received]
  · simp only [resume, attempt, received, settlePanic_of_none (acc.fault_drop.trans calm)]

/-- All that matters about a program is what it does with the input that a body gets. -/
theorem resume_congr {program other : Host ε}
    (same : ∀ body v, other.step body g inj.input v = program.step body g inj.input v) :
    w.resume other g inj external = w.resume program g inj external := by
  unfold resume attempt
  cases w.receive g inj external with
  | answered result v => rfl
  | entered t v => simp only [same]

end World

/-- No request hands a stop signal to its caller: one that escapes from a body is an error, or the end of a body that
was to close. A body that is to close sees an exit signal. If its context was not executing and nothing panics, the
answer is empty and the context completed; or the body has yielded, which is an error, and waits; or the body has
raised something else. Once the context is completed, it can be closed again and again, and its body does not run.

This is so as long as no release fails: nobody overwrites a count, and the destructors of objects that can die only look
on. The steps of the body, and those after the request, are mild like all steps. -/
theorem closing_discipline (host : ε) {ls : List Label} {c : Config ε} {g : GenId} {inj : Injection}
    {external : Option RecordId} {rest : Multiset Handle} {program : Host ε} {result : Resumption} {v : World ε}
    (reached : Course unwritten (Config.start host) ls c) (mild : ∀ l ∈ ls, l.Mild)
    (takes : c.owned = .generator g ::ₘ ((inj.offered external : Multiset Handle) + rest))
    (plays : ∀ t w, c.world.receive g inj external = .entered t w → ∃ ms d,
      program.Plays unwritten (c.under t w (↑inj.held + rest)) g t inj ms d)
    (answer : c.world.resume program g inj external = (result, v)) :
    (∀ e, result = .done (.raised e) → e.kind ≠ .stopIteration) ∧
    (∀ e, program.reaction c.world g inj external = some (.raises e) → e.kind = .stopIteration →
      result.isPanic = false → result = if inj.isClosing then .done (.returned nothing) else
        .done (.raised (.runtimeError ((c.world.generator g).kind.name ++ " raised StopIteration")))) ∧
    (inj = .close →
      (∀ other : Host ε, (∀ body u, other.step body g (.thrown .generatorExit) u =
          program.step body g (.thrown .generatorExit) u) → c.world.resume other g .close external = (result, v)) ∧
      (c.world.isExecuting g = false → result.isPanic = false →
        v.Closes g (c.world.generator g).kind (program.reaction c.world g .close external) result) ∧
      (v.fault = none → v.isCompleted g = true → ∃ ms d left,
        Kept unwritten c ms d ∧ d.world = v ∧ d.owned = .generator g ::ₘ left ∧
        ∀ later e, Kept unwritten d later e → e.world.isCompleted g = true ∧
          ∀ (other : Host ε) (external' : Option RecordId) (rest' : Multiset Handle),
            e.owned = .generator g ::ₘ ((Injection.close.offered external' : Multiset Handle) + rest') →
            other.reaction e.world g .close external' = none ∧
            e.world.resume other g .close external' =
              (.done (.returned nothing), e.world.drop (Injection.close.offered external')))) := by
  have start := Config.start_sound host
  have reached := reached.kept start mild
  have sound := reached.run.sound start
  have orderly := reached.run.orderly start (Config.start_orderly host)
  have busy := reached.busy start (Config.start_orderly host) (Config.start_busy host)
  have has := (sound.of_request takes).1
  have request := Config.request sound takes plays answer
  have calmly : result.isPanic = false → ∃ d, d.world = v ∧
      c.Request g inj external (program.reaction c.world g inj external) result d := by
    intro calm
    rcases request with ⟨_, d, world, -, asked⟩ | ⟨panicked, -⟩
    · exact ⟨d, world, asked⟩
    · rw [calm] at panicked
      cases panicked
  refine ⟨?_, ?_, ?_⟩
  · rintro e rfl
    obtain ⟨d, -, asked⟩ := calmly rfl
    exact asked.ne_stop sound has
  · intro e said stop calm
    obtain ⟨d, -, asked⟩ := calmly calm
    rw [said] at asked
    rw [asked.settled sound has calm]
    cases inj.isClosing <;> simp [Ending.settled, stop]
  · rintro rfl
    refine ⟨fun other same => (World.resume_congr same).trans answer, fun idle calm => ?_, fun alive completed => ?_⟩
    · obtain ⟨d, rfl, asked⟩ := calmly calm
      exact asked.closes sound orderly busy has idle calm
    · obtain ⟨left, d, rfl, owned, asked⟩ := request.resolve_right fun aborted => aborted.2 alive
      obtain ⟨ms, during⟩ := asked.run
      have sound' := during.run.sound sound
      have given := World.lt_next_of_has (sound'.has_owned (by rw [owned]; exact Multiset.mem_cons_self _ _))
      refine ⟨ms, d, left, during, rfl, owned, fun later e onward => ?_⟩
      have still := onward.completed sound' (during.run.orderly sound orderly) (during.busy sound orderly busy) given
        completed
      refine ⟨still, fun other external' rest' takes' => ?_⟩
      have sound'' := onward.run.sound sound'
      exact World.close_of_completed still (sound''.of_request takes').2 sound''.calm other

/-! ## A host that plays by a rule -/

theorem Config.playAll?_of_keepAll? {rule : Config ε → Label → Prop} [∀ c l, Decidable (rule c l)] {c : Config ε}
    {ks : List Play} {r : List Label × Config ε} (kept : keepAll? rule c ks = some r) : c.playAll? ks = some r := by
  induction ks generalizing c r with
  | nil => exact kept
  | cons k ks ih =>
    simp only [keepAll?] at kept
    simp only [playAll?]
    split at kept
    · cases kept
    · split at kept
      · obtain ⟨s, later, eq⟩ := Option.map_eq_some_iff.mp kept
        rw [ih later, Option.map_some, eq]
      · cases kept

theorem Host.playing_plays {rule : Config ε → Label → Prop} [∀ c l, Decidable (rule c l)] {w : World ε}
    {turns : List Turn} {owned : Multiset Handle} {ks : List Play} {ending : Ending} {ls : List Label} {d : Config ε}
    (g : GenId) (t : Turn) (inj : Injection) (kept : Config.keepAll? rule ⟨w, turns, owned, 0⟩ ks = some (ls, d))
    (back : d.turns = turns) (enough : (ending.held : Multiset Handle) ≤ d.owned) :
    (Host.playing turns owned ks ending).Plays rule ⟨w, turns, owned, 0⟩ g t inj ls d where
  body := Config.kept_of_keepAll? kept
  world := by simp only [Host.playing, Config.playAll?_of_keepAll? kept, Option.elim_some]
  turns := back
  takes := Multiset.le_iff_exists_add.mp enough

/-- Two contexts share a record. The body of one is to close; it asks the other to close, is refused, and raises a stop
signal. -/
theorem closing_discipline_shared :
    ∃ (ls : List Label) (c : Config Unit) (program : Host Unit) (result : Resumption) (v : World Unit),
      Course unwritten (Config.start ()) ls c ∧ (∀ l ∈ ls, l.Mild) ∧
      c.world.resume program 0 .close none = (result, v) ∧
      (c.world.generator 0).live = some 0 ∧ (c.world.generator 1).live = some 0 ∧
      program.reaction c.world 0 .close none = some (.raises ⟨.stopIteration, "done", none⟩) ∧
      result = .done (.returned nothing) ∧ v.isCompleted 0 = true ∧ (v.generator 1).live = some 0 ∧
      ∀ other : Host Unit, (v.resume other 0 .close none).1 = .done (.returned nothing) := by
  let turn : Turn := ⟨0, 0, 0, true⟩
  let ending : Ending := .raises ⟨.stopIteration, "done", none⟩
  let rest : Multiset Handle := {.generator 1, .object nothing}
  let ks : List Play := [.ask 1 .close none, .call (.setIp 0 (-1))]
  let program : Host Unit := .playing [turn] rest ks ending
  let goes (w : World Unit) : Bool :=
    (Config.keepAll? unwritten ⟨w, [turn], rest, 0⟩ ks).any fun r => decide (r.2.turns = [turn])
  let begins (c : Config Unit) : Bool :=
    match c.world.receive 0 .close none with
    | .answered _ _ => false
    | .entered t w => decide (t = turn) && goes w
  obtain ⟨ls, c, quiet, holds⟩ := Config.exists_kept
    (p := fun _ c => decide (c.turns = []) && decide (c.owned = .generator 0 ::ₘ rest) && decide (c.lost = 0) &&
      decide ((c.world.generator 0).live = some 0) && decide ((c.world.generator 1).live = some 0) &&
      decide (c.world.isExecuting 0 = false) && decide (program.reaction c.world 0 .close none = some ending) &&
      decide ((c.world.resume program 0 .close none).1.isPanic = false) &&
      decide ((c.world.resume program 0 .close none).2.fault = none) &&
      decide (((c.world.resume program 0 .close none).2.generator 1).live = some 0) && begins c)
    [.call (.newRecord { code := { module := "m", name := "f" } }), .call (.clone (.record 0)),
      .call (.newInterpreted .generator 0 0), .call (.newInterpreted .coroutine 0 1),
      .call (.clone (.object nothing)), .ask 0 (.send nothing) none, .stop (.yields nothing)]
    (by decide +kernel : (Config.keepAll? unwritten (Config.start ()) _).any _ = true)
  simp only [Bool.and_eq_true, decide_eq_true_eq] at holds
  obtain ⟨⟨⟨⟨⟨⟨⟨⟨⟨⟨turns, owned⟩, lost⟩, live⟩, shared⟩, idle⟩, said⟩, calm⟩, alive⟩, after⟩, begun⟩ := holds
  unfold begins at begun
  split at begun
  · cases begun
  next t w received =>
  unfold goes at begun
  simp only [Option.any_eq_true, Bool.and_eq_true, decide_eq_true_eq] at begun
  obtain ⟨rfl, ⟨ms, d⟩, kept, back⟩ := begun
  have takes : c.owned = .generator 0 ::ₘ ((Injection.close.offered none : Multiset Handle) + rest) := owned
  have under : c.under turn w (↑Injection.close.held + rest) = ⟨w, [turn], rest, 0⟩ := by
    rw [Config.under, turns, lost]
    rfl
  have plays : ∀ t' w', c.world.receive 0 .close none = .entered t' w' → ∃ ms d,
      program.Plays unwritten (c.under t' w' (↑Injection.close.held + rest)) 0 t' .close ms d := by
    intro t' w' entered
    cases received.symm.trans entered
    rw [under]
    exact ⟨ms, d, Host.playing_plays 0 turn .close kept back (Multiset.zero_le _)⟩
  cases answer : c.world.resume program 0 .close none with
  | mk result v =>
  rw [answer] at calm alive after
  obtain ⟨reached, mild⟩ := quiet.course (Config.start_sound ())
  obtain ⟨-, stops, closes⟩ := closing_discipline () reached mild takes plays answer
  obtain ⟨-, closed, again⟩ := closes rfl
  have returned : result = .done (.returned nothing) := stops _ said rfl calm
  subst returned
  have completed : v.isCompleted 0 = true := by
    rcases (closed idle calm).ends with ⟨-, completed⟩ | ⟨raised, -⟩ | ⟨_, raised, -⟩
    · exact completed
    · cases raised
    · cases raised
  obtain ⟨_, d, left, -, rfl, owned', later⟩ := again alive completed
  refine ⟨ls, c, program, _, _, reached, mild, answer, live, shared, said, rfl, completed, after, fun other => ?_⟩
  rw [← zero_add left] at owned'
  rw [((later [] d .nil).2 other none _ owned').2]

/-- Every body yields the object. -/
def Host.yielding (o : ObjId) : Host ε where
  step := fun _ _ _ w => (.yields o, w)
  build := fun _ _ ip w => (.error (.builder ip), w)

/-- A coroutine waits at its first yield, and has a record already. The next request brings along another one, in which
there is an object whose destructor panics, and so the body is lost. A request to close the coroutine, which is neither
executing nor completed, is refused.

Another coroutine is to close, and its body yields an object whose count has been overwritten. The program ends before
the request has an answer. -/
theorem close_refused_without_turn :
    (∃ (ls : List Label) (c d : Config Unit) (l : Label), Course unwritten (Config.start ()) ls c ∧ c.world.Waits 0 ∧
      Step c l d ∧ l.Ends c.world 0 (.panicked (.destructor "stuck")) ∧ d.turns = [] ∧ d.world.Waits 0 ∧
      (d.world.resume (.building .absent) 0 .close none).1 = .refused (.alreadyExecuting .coroutine)) ∧
    ∃ (ls : List Label) (c : Config Unit), Course unwritten (Config.start ()) ls c ∧ c.world.Waits 0 ∧
      c.owned = {.generator 0, .object 1, .object 1, .object nothing} ∧
      (c.world.resume (.yielding 1) 0 .close none).2.fault = some (.negative Count.lowest.val) := by
  let code : Code := { module := "m", name := "f" }
  let jammed : TypeInfo := ⟨"jammed", .none, .panics "stuck"⟩
  constructor
  · exact Config.exists_bereft
      [.call (.newCompiled .coroutine code none 0), .call (.newRecord { code }), .call (.bindRecord 0 0),
        .call (.clone (.object nothing)), .ask 0 (.send nothing) none, .stop (.yields nothing),
        .call (.newObject jammed (.int 1)), .call (.newRecord { code }), .call (.setSlot 1 0 1)]
      (.destructor "stuck") .close .coroutine
      (by decide +kernel : (Config.actAll? unwritten (Config.start ()) _).any _ = true)
  · obtain ⟨ls, c, reached, holds⟩ := Config.exists_course
      (p := fun _ c => !c.world.isExecuting 0 && !c.world.isCompleted 0 && (c.world.yieldPoint 0).isSome &&
        decide (c.owned = {.generator 0, .object 1, .object 1, .object nothing}) &&
        decide ((c.world.resume (.yielding 1) 0 .close none).2.fault = some (.negative Count.lowest.val)))
      [.call (.newCompiled .coroutine code none 0), .call (.clone (.object nothing)), .ask 0 (.send nothing) none,
        .stop (.yields nothing), .call (.newObject .int (.int 1)), .call (.setCount 1 .lowest),
        .call (.clone (.object 1))]
      (by decide +kernel : (Config.actAll? unwritten (Config.start ()) _).any _ = true)
    simp only [Bool.and_eq_true, Bool.not_eq_true', decide_eq_true_eq] at holds
    obtain ⟨⟨⟨⟨idle, going⟩, point⟩, owned⟩, ends⟩ := holds
    exact ⟨ls, c, reached, ⟨idle, going, point⟩, owned, ends⟩

end Activation
