import Activation.Proofs.Lifecycle.Turns
import Activation.Proofs.Play

/-! # Completion is final

A context that a request has driven to its end stays there, whatever is done to the context, its frame or the
record that it used to have. Its body never runs again, and every request is answered at once.

* `World.Done`: the context has finished for good; there is no record left that could say otherwise.
* `Label.Completes`: the steps that drive a context to its end.
* `completion_absorbing`: the whole of it, for every run.
-/

namespace Activation
set_option autoImplicit false

variable {ε : Type}

/-! ## Finished contexts -/

/-- Closing the context would change nothing. -/
def World.Done (w : World ε) (g : GenId) : Prop := (w.status g).backing.closed = (w.status g).backing

namespace World.Done

variable {w : World ε} {g : GenId}

theorem cases (done : w.Done g) :
    (w.generator g).backing = .compiled .completed 0 ∨ (w.generator g).backing = .interpreted none := by
  have same : (w.generator g).backing.closed = (w.generator g).backing := done
  cases backing : (w.generator g).backing with
  | compiled state n =>
    rw [backing] at same
    exact .inl same.symm
  | interpreted live =>
    rw [backing] at same
    exact .inr same.symm

theorem isCompleted (done : w.Done g) : w.isCompleted g = true := by
  rcases done.cases with backing | backing <;> simp [World.isCompleted, backing]

theorem isExecuting (done : w.Done g) : w.isExecuting g = false := by
  rcases done.cases with backing | backing <;> simp [World.isExecuting, backing]

theorem isRunnable (done : w.Done g) : w.isRunnable g = false := by
  rcases done.cases with backing | backing <;> simp [World.isRunnable, backing]

theorem isJustStarted (done : w.Done g) : w.isJustStarted g = false := by
  rcases done.cases with backing | backing <;> simp [World.isJustStarted, backing]

theorem yieldPoint (done : w.Done g) : w.yieldPoint g = none := by
  rcases done.cases with backing | backing <;> simp [World.yieldPoint, backing]

/-- What is not there reads as finished. -/
theorem of_absent (gone : ¬ w.Has (.generator g)) : w.Done g := by
  have none : w.generators.get? g = none := by simpa [World.Has] using gone
  simp [Done, World.status, World.generator, none, Generator.status, Generator.absent, Backing.closed]

theorem of_closed {s : Status} (status : w.status g = s.closed) : w.Done g := by
  rw [Done, status]
  exact Backing.closed_closed _

end World.Done

/-! ## Requests to a finished context -/

namespace World.Done

variable {w : World ε} {g : GenId} {inj : Injection}

theorem not_enter (done : w.Done g) {body : BodyId} (judged : Judged w g inj (.enter body)) : False := by
  cases judged with
  | entered _ going =>
    rw [done.isCompleted] at going
    cases going

theorem reply (done : w.Done g) {v : World ε} {result : Resumption} (reply : Reply w g inj v result) :
    result = inj.farewell (w.generator g).kind := by
  have completed := done.isCompleted
  have idle := done.isExecuting
  cases reply with
  | refused judged =>
    cases judged with
    | executing executing => rw [idle] at executing; cases executing
    | exhausted _ _ calling => simp [Injection.farewell, calling]
    | valued _ going => rw [completed] at going; cases going
    | bodiless _ going => rw [completed] at going; cases going
  | ignored judged =>
    cases judged with
    | ignored _ _ closing => simp [Injection.farewell, closing]
  | finished judged =>
    cases judged with
    | finished _ going => rw [completed] at going; cases going
  | stuck judged => exact (done.not_enter judged).elim

theorem after_reply (done : w.Done g) {v : World ε} {result : Resumption}
    (reply : Reply w g inj v result) : v.Done g := by
  cases reply with
  | refused _ _ status => rw [Done, status]; exact done
  | ignored _ _ status => rw [Done, status]; exact done
  | finished _ status => exact .of_closed status
  | stuck _ _ status => exact .of_closed status

/-- A context can finish while its body runs, if its record is tampered with. The rest of the turn has no say
in it. -/
theorem after_turn (done : w.Done g) (away : (w.status g).Away) (body : BodyId) (ending : Ending) :
    ((w.status g).after body ending).backing.closed = ((w.status g).after body ending).backing := by
  -- a compiled context keeps its state for itself, and it is not finished while its body is out
  have backing : (w.status g).backing = .interpreted none := by
    rcases done.cases with compiled | interpreted
    · rcases away.busy _ _ compiled with state | ⟨state, -⟩ <;> cases state
    · exact interpreted
  cases ending <;> simp only [Status.after, Status.closed, backing, Backing.paused, Backing.closed]

/-- A whole request to a finished context, whatever the host would do. -/
theorem resume (done : w.Done g) {external : Option RecordId} {out : Multiset Handle}
    (acc : Accounted w (↑(inj.offered external) + out)) (calm : w.fault = none) (host : Host ε) :
    (w.resume host g inj external).1 = inj.farewell (w.generator g).kind := by
  have received : w.receive g inj external =
      .answered (inj.farewell (w.generator g).kind) (w.drop (inj.offered external)) := by
    cases closing : inj.isClosing with
    | true =>
      simp [World.receive, World.verdict, done.isExecuting, done.isCompleted, Injection.farewell, closing,
        Injection.offered, Injection.held_of_isClosing closing]
    | false =>
      simp [World.receive, World.verdict, done.isExecuting, done.isCompleted, Injection.farewell, closing,
        Injection.offered]
  simp only [World.resume, World.attempt, received, settlePanic_of_none (acc.fault_drop.trans calm)]

end World.Done

/-! ## Steps -/

def Resumption.isPanic : Resumption → Bool
  | .panicked _ => true
  | _ => false

/-- The step drives the context to its end: its body stops without a yield, the request to close comes before
the first instruction, or the frame of the context cannot be put on the stack. -/
def Label.Completes (w : World ε) (g : GenId) : Label → Prop
  | .ended t ending _ => t.context = g ∧ ending.isYield = false
  | .answered k inj _ result =>
    k = g ∧ (inj.isClosing = true ∧ w.isJustStarted g = true ∧ w.isExecuting g = false ∧
      w.isCompleted g = false ∨ result.isPanic = true)
  | _ => False

instance Label.decidableCompletes (w : World ε) (g : GenId) (l : Label) : Decidable (l.Completes w g) := by
  unfold Label.Completes
  split <;> infer_instance

/-- The step is no turn of the context, and a request to the context is answered for good. -/
def Label.Dismisses (g : GenId) (kind : GeneratorKind) : Label → Prop
  | .entered t _ _ => t.context ≠ g
  | .answered k inj _ result => k = g → result = inj.farewell kind
  | _ => True

/-- A request that closes the context before its first instruction, or panics, finishes the context. -/
theorem Reply.done {w v : World ε} {g : GenId} {inj : Injection} {result : Resumption}
    (reply : Reply w g inj v result)
    (why : inj.isClosing = true ∧ w.isJustStarted g = true ∧ w.isExecuting g = false ∧
      w.isCompleted g = false ∨ result.isPanic = true) : v.Done g := by
  cases reply with
  | finished _ status => exact .of_closed status
  | stuck _ _ status => exact .of_closed status
  | ignored judged =>
    obtain ⟨-, -, -, going⟩ | panicked := why
    · cases judged with
      | ignored _ completed => rw [going] at completed; cases completed
    · cases panicked
  | refused judged =>
    obtain ⟨closing, fresh, idle, going⟩ | panicked := why
    · cases judged with
      | executing executing => rw [idle] at executing; cases executing
      | exhausted _ completed => rw [going] at completed; cases completed
      | valued _ _ _ sends =>
        cases inj with
        | close => cases sends
        | _ => cases closing
      | bodiless _ _ fits =>
        rw [(fits fresh).2] at closing
        cases closing
    · cases panicked

namespace Step

variable {c d : Config ε} {l : Label} {g : GenId}

theorem completes (sound : c.Sound) (step : Step c l d) (completes : l.Completes c.world g) :
    c.world.Has (.generator g) ∧ d.world.Has (.generator g) ∧ d.world.Done g := by
  cases l with
  | ended t ending result =>
    obtain ⟨rfl, stops⟩ := completes
    obtain ⟨before, after⟩ := step.has_ended sound
    obtain ⟨-, -, -, status⟩ := step.ended_status sound
    refine ⟨before, after, ?_⟩
    rw [World.Done, status, Status.backing_after _ _ stops]
    exact Backing.closed_closed _
  | answered k inj external result =>
    obtain ⟨rfl, why⟩ := completes
    obtain ⟨before, after⟩ := step.has_asked sound
    exact ⟨before, after, (step.reply sound).done why⟩
  | _ => exact completes.elim

theorem done (sound : c.Sound) (orderly : c.Orderly) (step : Step c l d)
    (given : g < c.world.generators.next) (done : c.world.Done g) : d.world.Done g := by
  by_cases has : d.world.Has (.generator g)
  · by_cases other : (l.footprint c.world).contexts g
    · cases l with
      | op call => exact (call.not_contexts _ _ other).elim
      | quiet => exact other.elim
      | answered k inj external result =>
        cases (other : g = k)
        exact done.after_reply (step.reply sound)
      | entered t inj external =>
        cases (other : g = t.context)
        obtain ⟨body, judged, -⟩ := step.entered_status sound
        exact (done.not_enter judged).elim
      | ended t ending result =>
        cases (other : g = t.context)
        obtain ⟨turns, -, -, status⟩ := step.ended_status sound
        have away := orderly.away t (by rw [turns]; exact List.mem_cons_self ..)
        rw [World.Done, status]
        exact done.after_turn away t.body ending
      | strayed t ending result => exact other.elim
    · have same := step.status_eq sound other given has
      rw [World.Done, same]
      exact done
  · exact .of_absent has

theorem dismisses (sound : c.Sound) (step : Step c l d) (done : c.world.Done g) {kind : GeneratorKind}
    (known : c.world.Has (.generator g) → (c.world.generator g).kind = kind) : l.Dismisses g kind := by
  cases l with
  | entered t inj external =>
    rintro rfl
    obtain ⟨body, judged, -⟩ := step.entered_status sound
    exact done.not_enter judged
  | answered k inj external result =>
    rintro rfl
    rw [← known (step.has_asked sound).1]
    exact done.reply (step.reply sound)
  | _ => trivial

end Step

/-! ## Runs -/

/-- What holds of a finished context all along a run. -/
structure Config.Retired (c d : Config ε) (ls : List Label) (g : GenId) : Prop where
  done : d.world.Done g
  given : g < d.world.generators.next
  kind : d.world.Has (.generator g) → (d.world.generator g).kind = (c.world.generator g).kind
  dismisses : ∀ l ∈ ls, l.Dismisses g (c.world.generator g).kind

theorem Run.retired {c d : Config ε} {ls : List Label} {g : GenId} (sound : c.Sound) (orderly : c.Orderly)
    (done : c.world.Done g) (given : g < c.world.generators.next) (run : Run c ls d) : c.Retired d ls g := by
  induction run with
  | nil => exact ⟨done, given, fun _ => rfl, fun _ member => absurd member List.not_mem_nil⟩
  | @snoc ls l d e init step ih =>
    have sound' := init.sound sound
    refine ⟨step.done sound' (init.orderly sound orderly) ih.given ih.done,
      ih.given.trans_le (step.next_le sound'), fun has => ?_, fun m member => ?_⟩
    · obtain ⟨before, same, -⟩ := step.keeps_context sound' ih.given has
      exact same.trans (ih.kind before)
    · rcases List.mem_append.mp member with earlier | last
      · exact ih.dismisses m earlier
      · obtain rfl := List.mem_singleton.mp last
        exact step.dismisses sound' ih.done ih.kind

/-- Completion is final. After a step that drives a context to its end, and any further run, the context is
completed and nothing else, and stands at no yield. None of the further steps is a turn of its body, every
request to it during the run was answered for good, and so is every request that can be made now. -/
theorem completion_absorbing (host : ε) {before after : List Label} {c d e : Config ε} {l : Label} {g : GenId}
    (reached : Run (Config.start host) before c) (step : Step c l d) (completes : l.Completes c.world g)
    (onward : Run d after e) :
    (e.world.isCompleted g = true ∧ e.world.isRunnable g = false ∧ e.world.isExecuting g = false ∧
      e.world.isJustStarted g = false ∧ e.world.yieldPoint g = none) ∧
    (∀ m ∈ after, m.Dismisses g (d.world.generator g).kind) ∧
    ∀ (program : Host ε) (inj : Injection) (external : Option RecordId) (rest : Multiset Handle),
      e.owned = .generator g ::ₘ ((inj.offered external : Multiset Handle) + rest) →
      (e.world.resume program g inj external).1 = inj.farewell (d.world.generator g).kind := by
  have sound := reached.sound (Config.start_sound host)
  have orderly := reached.orderly (Config.start_sound host) (Config.start_orderly host)
  have sound' := step.sound sound
  obtain ⟨-, has, done⟩ := step.completes sound completes
  have retired := onward.retired sound' (step.orderly sound orderly) done (World.lt_next_of_has has)
  have final := retired.done
  refine ⟨⟨final.isCompleted, final.isRunnable, final.isExecuting, final.isJustStarted, final.yieldPoint⟩,
    retired.dismisses, fun program inj external rest takes => ?_⟩
  have sound'' := onward.sound sound'
  have acc := sound''.accounted
  rw [e.outside_of_request takes] at acc
  have held : .generator g ∈ e.owned := by
    rw [takes]
    exact Multiset.mem_cons_self _ _
  have there := sound''.has_owned held
  rw [final.resume acc sound''.calm program, retired.kind there]

/-- Somebody keeps the record of an interpreted context, and writes to it while the body runs and again after the
body has panicked. In the end the record says that the context is about to start; the context is finished all
the same, and a value and a request to close are answered accordingly. -/
theorem completion_absorbing_tampered :
    ∃ (before after : List Label) (c d e : Config Unit) (l : Label),
      Run (Config.start ()) before c ∧ Step c l d ∧ l.Completes c.world 0 ∧ Run d after e ∧
      (e.world.record 0).state = .created ∧ (e.world.record 0).lastInstr = -1 ∧
      e.world.isCompleted 0 = true ∧ e.world.isJustStarted 0 = false ∧
      ∀ program : Host Unit,
        (e.world.resume program 0 .close none).1 = .done (.returned nothing) ∧
        (e.world.resume program 0 (.send nothing) none).1 = .refused (.exhausted .coroutine) := by
  let later : List Play :=
    [.call (.setState 0 .created), .call (.setLastInstr 0 (-1)), .ask 0 (.send nothing) none,
      .ask 0 .close none, .call (.clone (.object nothing))]
  let tampers (_ : List Label) (c : Config Unit) : Bool :=
    (c.play? (.stop (.panics (.body "broken")))).any fun s =>
      decide (s.1.Completes c.world 0) && decide ((s.2.world.generator 0).kind = .coroutine) &&
        (s.2.playAll? later).any fun r =>
          decide ((r.2.world.record 0).state = .created) && decide ((r.2.world.record 0).lastInstr = -1) &&
            decide ((.generator 0 ::ₘ .object nothing ::ₘ 0 : Multiset Handle) ≤ r.2.owned)
  obtain ⟨before, c, reached, holds⟩ := Config.exists_run (p := tampers)
    [.call (.newRecord { code := { module := "m", name := "f" } }), .call (.clone (.record 0)),
      .call (.newInterpreted .coroutine 0 0), .call (.clone (.object nothing)),
      .call (.clone (.object nothing)), .ask 0 (.send nothing) none, .call (.setState 0 .suspended),
      .call (.setLastInstr 0 (-1))]
    (by decide +kernel : ((Config.start ()).playAll? _).any _ = true)
  unfold tampers at holds
  simp only [Option.any_eq_true, Bool.and_eq_true, decide_eq_true_eq] at holds
  obtain ⟨⟨l, d⟩, stopped, ⟨completes, kind⟩, ⟨after, e⟩, played, ⟨created, start⟩, enough⟩ := holds
  have step := Config.step_of_play? stopped
  have onward := Config.run_of_playAll? played
  obtain ⟨⟨completed, -, -, started, -⟩, -, answers⟩ :=
    completion_absorbing () reached step completes onward
  obtain ⟨rest, owned⟩ := Multiset.le_iff_exists_add.mp enough
  refine ⟨before, after, c, d, e, l, reached, step, completes, onward, created, start, completed, started,
    fun program => ?_⟩
  rw [kind] at answers
  refine ⟨answers program .close none (.object nothing ::ₘ rest) ?_, answers program (.send nothing) none rest ?_⟩
  · rw [owned]
    simp [Injection.offered, Injection.held]
  · rw [owned]
    simp [Injection.offered, Injection.held]

end Activation
