import Activation.Proofs.Completion
import Activation.Proofs.Lifecycle.Answers

/-! # Bodies that stray

A request lets go of its context, unless the body leaves the stack with another frame on top. The guard of the frame
then panics after the context was told that its body has not panicked, and nobody tells it otherwise.

* `Label.Ends`: the steps that end a request; `Label.isStray`: those after a body that has strayed.
* `Step.released`: after any other request the context is not executing, and after a panic it has finished.
* `Config.Stranded`: a compiled context that counts as executing, though no turn of it is under way.
* `Run.stranded`: it stays so, and refuses every request.
* `request_releases`: both together; `resume_strands`: a request that strands its context.
-/

namespace Activation
set_option autoImplicit false

variable {ε : Type}

/-- The step ends a request to a context that was not executing. -/
def Label.Ends (w : World ε) (g : GenId) (result : Resumption) : Label → Prop
  | .answered k _ _ r => k = g ∧ r = result ∧ w.isExecuting g = false
  | .ended t _ r => t.context = g ∧ r = result
  | .strayed t _ r => t.context = g ∧ r = result
  | _ => False

def Label.isStray : Label → Bool
  | .strayed _ _ _ => true
  | _ => false

/-- The step is no turn of the context, and a request to the context is refused as if its body were running. -/
def Label.Rebuffs (g : GenId) (kind : GeneratorKind) : Label → Prop
  | .entered t _ _ => t.context ≠ g
  | .answered k _ _ result => k = g → result = .refused (.alreadyExecuting kind)
  | _ => True

/-! ## Contexts that are let go -/

/-- A compiled context keeps its state for itself. -/
theorem World.isExecuting_of_compiled {w v : World ε} {g : GenId} (status : v.status g = w.status g)
    (compiled : (w.generator g).isCompiled = true) : v.isExecuting g = w.isExecuting g := by
  have same : (v.generator g).backing = (w.generator g).backing := congrArg Status.backing status
  unfold Generator.isCompiled at compiled
  unfold isExecuting
  rw [same]
  cases backing : (w.generator g).backing with
  | compiled state n => cases state <;> rfl
  | interpreted live => rw [backing] at compiled; cases compiled

theorem Steady.isExecuting_eq {F : Footprint} {w v : World ε} {g : GenId} {out rest : Multiset Handle}
    (steady : Steady F w v) (acc : Accounted w out) (acc' : Accounted v rest) (status : v.status g = w.status g)
    (free : ∀ r, ¬ F.records r) : v.isExecuting g = w.isExecuting g := by
  have same : (v.generator g).backing = (w.generator g).backing := congrArg Status.backing status
  cases backing : (w.generator g).backing with
  | compiled state n => exact World.isExecuting_of_compiled status (by rw [Generator.isCompiled, backing])
  | interpreted live =>
    unfold World.isExecuting
    rw [same, backing]
    cases live with
    | none => rfl
    | some r =>
      -- both worlds hold the record, so it has not changed in between
      have before : (w.generator g).live = some r := by rw [Generator.live, backing]
      have after : (v.generator g).live = some r := by rw [Generator.live, same, backing]
      obtain ⟨x, found⟩ := Option.isSome_iff_exists.mp (acc.has_record before)
      obtain ⟨state, -⟩ := steady.record_eq (free r) (w.records.lt_next found) (acc'.has_record after)
      simp only [Option.any_some, state]

theorem Reply.released {w v : World ε} {g : GenId} {inj : Injection} {result : Resumption}
    {out rest : Multiset Handle} (reply : Reply w g inj v result) (acc : Accounted w out) (acc' : Accounted v rest)
    (idle : w.isExecuting g = false) : v.isExecuting g = false := by
  cases reply with
  | refused _ steady status => rw [steady.isExecuting_eq acc acc' status fun _ => id, idle]
  | ignored _ steady status => rw [steady.isExecuting_eq acc acc' status fun _ => id, idle]
  | finished _ status => exact (World.Done.of_closed status).isExecuting
  | stuck _ _ status => exact (World.Done.of_closed status).isExecuting

theorem Ending.isYield_of_settled {kind : GeneratorKind} {closing : Bool} {ending : Ending}
    (panics : (ending.settled kind closing).isPanic = true) : ending.isYield = false := by
  cases ending with
  | yields o =>
    cases closing <;> cases panics
  | _ => rfl

namespace Step

variable {c d : Config ε} {l : Label} {g : GenId} {t : Turn} {ending : Ending} {result : Resumption}

theorem yielded_released (sound : c.Sound) (step : Step c (.ended t ending result) d)
    (yields : ending.isYield = true) : d.world.isExecuting t.context = false := by
  obtain ⟨-, -, -, status⟩ := step.ended_status sound
  have after : (d.world.generator t.context).backing =
      (c.world.generator t.context).backing.paused ((c.world.generator t.context).yields + 1) := by
    refine (congrArg Status.backing status).trans ?_
    cases ending with
    | yields o => rfl
    | _ => cases yields
  unfold World.isExecuting
  rw [after]
  cases backing : (c.world.generator t.context).backing with
  | compiled state n => simp [Backing.paused]
  | interpreted live =>
    cases live with
    | none => rfl
    | some r =>
      obtain ⟨suspended, -⟩ := step.ended_record sound yields backing
      simp [Backing.paused, suspended, RecordState.isExecuting]

theorem released (sound : c.Sound) (step : Step c l d) (ends : l.Ends c.world g result) (steers : l.isStray = false) :
    d.world.Has (.generator g) ∧ d.world.isExecuting g = false ∧ (result.isPanic = true → d.world.Done g) := by
  cases l with
  | answered k inj external r =>
    obtain ⟨rfl, rfl, idle⟩ := ends
    have reply := step.reply sound
    exact ⟨(step.has_asked sound).2, reply.released sound.accounted (step.sound sound).accounted idle,
      fun panics => reply.done (.inr panics)⟩
  | ended t ending r =>
    obtain ⟨rfl, rfl⟩ := ends
    have stops : ending.isYield = false → d.world.Done t.context := fun stops =>
      (step.completes sound (l := .ended t ending r) ⟨rfl, stops⟩).2.2
    refine ⟨(step.has_ended sound).2, ?_, fun panics => stops ?_⟩
    · cases yields : ending.isYield with
      | true => exact step.yielded_released sound yields
      | false => exact (stops yields).isExecuting
    · rw [step.settled sound] at panics
      exact Ending.isYield_of_settled panics
  | strayed t ending r => cases steers
  | _ => exact ends.elim

/-- The context is told nothing about the panic. -/
theorem strayed_status (sound : c.Sound) (step : Step c (.strayed t ending result) d) :
    d.world.Has (.generator t.context) ∧ d.world.status t.context = c.world.status t.context := by
  have turn : t ∈ c.turns := by rw [step.strayed_turns]; exact List.mem_cons_self
  have after : d.world.Has (.generator t.context) := by
    have sound' := step.sound sound
    cases step with
    | strayed => exact sound'.has_owned (Multiset.mem_cons_self _ _)
  exact ⟨after, step.status_eq sound id (World.lt_next_of_has (sound.has_turn turn)) after⟩

theorem strayed_result (sound : c.Sound) (step : Step c (.strayed t ending result) d) :
    result = .panicked .unbalancedPop := by
  cases step with
  | strayed innermost unbalanced calm takes =>
    have acc := sound.accounted
    rw [c.outside_of_turn innermost takes] at acc
    have fault := acc.fault_leave_strayed sound.calm unbalanced
    rw [World.finish, c.world.conclude_of_calm t calm, World.isUnwinding_of_unwinding fault, if_pos rfl,
      World.settlePanic_of_unwinding fault]

end Step

/-! ## Stranded contexts -/

structure Config.Stranded (c : Config ε) (g : GenId) (kind : GeneratorKind) : Prop where
  given : g < c.world.generators.next
  away : ∀ t ∈ c.turns, t.context ≠ g
  stuck : c.world.Has (.generator g) → (c.world.generator g).isCompiled = true ∧ c.world.isExecuting g = true ∧
    (c.world.generator g).kind = kind

/-- A context that counts as executing refuses every request. -/
theorem Judged.of_executing {w : World ε} {g : GenId} {inj : Injection} {verdict : Verdict}
    (judged : Judged w g inj verdict) (executing : w.isExecuting g = true) :
    verdict = .refuse (.alreadyExecuting (w.generator g).kind) := by
  cases judged with
  | executing => rfl
  | bodiless => rfl
  | _ idle => rw [executing] at idle; cases idle

theorem World.resume_of_executing {w : World ε} {g : GenId} {inj : Injection} {external : Option RecordId}
    {out : Multiset Handle} (executing : w.isExecuting g = true) (acc : Accounted w (↑(inj.offered external) + out))
    (calm : w.fault = none) (host : Host ε) :
    (w.resume host g inj external).1 = .refused (.alreadyExecuting (w.generator g).kind) := by
  have received : w.receive g inj external =
      .answered (.refused (.alreadyExecuting (w.generator g).kind)) (w.drop (inj.offered external)) := by
    simp [receive, verdict, executing, Injection.offered]
  simp only [resume, attempt, received, settlePanic_of_none (acc.fault_drop.trans calm)]

namespace Step

variable {c d : Config ε} {l : Label} {g : GenId} {kind : GeneratorKind} {t : Turn} {ending : Ending}
  {result : Resumption}

theorem strands (sound : c.Sound) (orderly : c.Orderly) (step : Step c (.strayed t ending result) d)
    (compiled : (d.world.generator t.context).isCompiled = true) :
    d.Stranded t.context (d.world.generator t.context).kind := by
  have turns := step.strayed_turns
  obtain ⟨after, status⟩ := step.strayed_status sound
  have once := orderly.once
  rw [turns, List.map_cons, List.nodup_cons] at once
  refine ⟨World.lt_next_of_has after, fun u member own => once.1 (List.mem_map.mpr ⟨u, member, own⟩), fun _ =>
    ⟨compiled, ?_, rfl⟩⟩
  -- the status is that of a context whose body is out
  have away := orderly.away t (by rw [turns]; exact List.mem_cons_self)
  rw [← status] at away
  cases backing : (d.world.generator t.context).backing with
  | compiled state n => exact World.isExecuting_of_away away backing
  | interpreted live => rw [Generator.isCompiled, backing] at compiled; cases compiled

theorem rebuffs (sound : c.Sound) (stranded : c.Stranded g kind) (step : Step c l d) : l.Rebuffs g kind := by
  cases l with
  | entered t inj external =>
    rintro rfl
    obtain ⟨-, executing, -⟩ := stranded.stuck (step.has_entered sound).1
    obtain ⟨body, judged, -⟩ := step.entered_status sound
    cases judged.of_executing executing
  | answered k inj external result =>
    rintro rfl
    obtain ⟨-, executing, rfl⟩ := stranded.stuck (step.has_asked sound).1
    cases step.reply sound with
    | refused judged => rw [Verdict.refuse.inj (judged.of_executing executing)]
    | ignored judged => cases judged.of_executing executing
    | finished judged => cases judged.of_executing executing
    | stuck judged => cases judged.of_executing executing
  | _ => trivial

theorem stranded_status (sound : c.Sound) (stranded : c.Stranded g kind) (step : Step c l d)
    (after : d.world.Has (.generator g)) : d.world.status g = c.world.status g := by
  have before := (step.keeps_context sound stranded.given after).1
  obtain ⟨-, executing, -⟩ := stranded.stuck before
  by_cases other : (l.footprint c.world).contexts g
  · cases l with
    | op call => exact (call.not_contexts _ _ other).elim
    | quiet => exact other.elim
    | answered k inj external result =>
      cases (other : g = k)
      cases step.reply sound with
      | refused _ _ status => exact status
      | ignored _ _ status => exact status
      | finished judged => cases judged.of_executing executing
      | stuck judged => cases judged.of_executing executing
    | entered t inj external =>
      cases (other : g = t.context)
      exact (step.rebuffs sound stranded rfl).elim
    | ended t ending result =>
      cases (other : g = t.context)
      have turn : t ∈ c.turns := by rw [(step.ended_status sound).1]; exact List.mem_cons_self
      exact (stranded.away t turn rfl).elim
    | strayed t ending result => exact other.elim
  · exact step.status_eq sound other stranded.given after

theorem stranded (sound : c.Sound) (stranded : c.Stranded g kind) (step : Step c l d) : d.Stranded g kind where
  given := stranded.given.trans_le (step.next_le sound)
  away t turn := by
    rw [step.turns_eq] at turn
    cases l with
    | entered u inj external =>
      rcases List.mem_cons.mp turn with rfl | old
      · exact step.rebuffs sound stranded
      · exact stranded.away t old
    | ended u ending result => exact stranded.away t (List.mem_of_mem_tail turn)
    | strayed u ending result => exact stranded.away t (List.mem_of_mem_tail turn)
    | _ => exact stranded.away t turn
  stuck after := by
    have before := (step.keeps_context sound stranded.given after).1
    obtain ⟨compiled, executing, same⟩ := stranded.stuck before
    have status := step.stranded_status sound stranded after
    have backing : (d.world.generator g).backing = (c.world.generator g).backing := congrArg Status.backing status
    have kind' : (d.world.generator g).kind = (c.world.generator g).kind := congrArg Status.kind status
    refine ⟨?_, (World.isExecuting_of_compiled status compiled).trans executing, kind'.trans same⟩
    rw [Generator.isCompiled, backing]
    exact compiled

end Step

theorem Run.stranded {c d : Config ε} {ls : List Label} {g : GenId} {kind : GeneratorKind} (sound : c.Sound)
    (stranded : c.Stranded g kind) (run : Run c ls d) : d.Stranded g kind ∧ ∀ l ∈ ls, l.Rebuffs g kind := by
  induction run with
  | nil => exact ⟨stranded, fun _ member => absurd member List.not_mem_nil⟩
  | @snoc ls l d e init step ih =>
    obtain ⟨here, earlier⟩ := ih
    have sound' := init.sound sound
    refine ⟨step.stranded sound' here, fun m member => ?_⟩
    rcases List.mem_append.mp member with old | last
    · exact earlier m old
    · obtain rfl := List.mem_singleton.mp last
      exact step.rebuffs sound' here

/-! ## Later requests -/

namespace Config

variable {c d : Config ε} {ls : List Label} {g : GenId} {kind : GeneratorKind} {inj : Injection}
  {external : Option RecordId} {rest : Multiset Handle}

theorem Sound.of_request (sound : c.Sound)
    (takes : c.owned = .generator g ::ₘ ((inj.offered external : Multiset Handle) + rest)) :
    c.world.Has (.generator g) ∧
      Accounted c.world (↑(inj.offered external) + (.generator g ::ₘ (rest + c.reserved))) := by
  refine ⟨sound.has_owned ?_, c.outside_of_request takes ▸ sound.accounted⟩
  rw [takes]
  exact Multiset.mem_cons_self _ _

theorem Retired.resume (retired : c.Retired d ls g) (sound : d.Sound)
    (takes : d.owned = .generator g ::ₘ ((inj.offered external : Multiset Handle) + rest)) (program : Host ε) :
    (d.world.resume program g inj external).1 = inj.farewell (c.world.generator g).kind := by
  obtain ⟨there, acc⟩ := sound.of_request takes
  rw [retired.done.resume acc sound.calm program, retired.kind there]

theorem Stranded.resume (stranded : c.Stranded g kind) (sound : c.Sound)
    (takes : c.owned = .generator g ::ₘ ((inj.offered external : Multiset Handle) + rest)) (program : Host ε) :
    (c.world.resume program g inj external).1 = .refused (.alreadyExecuting kind) := by
  obtain ⟨there, acc⟩ := sound.of_request takes
  obtain ⟨-, executing, same⟩ := stranded.stuck there
  rw [World.resume_of_executing executing acc sound.calm program, same]

end Config

/-- A request lets go of its context, and one that ends in a panic has finished it for good, unless the body has
strayed. Then the request panics, and the context counts as executing if it did so when the body stopped. A compiled
one does, for ever: no turn of it begins, and it refuses every request.

This is so as long as no release fails: nobody overwrites a count, and the destructors of objects that can die only look
on. -/
theorem request_releases (host : ε) {before : List Label} {c d : Config ε} {l : Label} {g : GenId}
    {result : Resumption} (reached : Course (fun _ _ => True) (Config.start host) before c)
    (mild : ∀ m ∈ before, m.Mild) (step : Step c l d) (ends : l.Ends c.world g result) :
    (l.isStray = false →
      d.world.isExecuting g = false ∧
      (result.isPanic = true → ∀ after e, Course (fun _ _ => True) d after e → (∀ m ∈ after, m.Mild) →
        e.world.isCompleted g = true ∧ e.world.isExecuting g = false ∧
        ∀ (program : Host ε) (o : ObjId) (external : Option RecordId) (rest : Multiset Handle),
          e.owned = .generator g ::ₘ (((Injection.send o).offered external : Multiset Handle) + rest) →
          (e.world.resume program g (.send o) external).1 = .refused (.exhausted (d.world.generator g).kind))) ∧
    (l.isStray = true →
      result = .panicked .unbalancedPop ∧ d.world.isExecuting g = c.world.isExecuting g ∧
      ((d.world.generator g).isCompiled = true → ∀ after e, Course (fun _ _ => True) d after e → (∀ m ∈ after, m.Mild) →
        (∀ m ∈ after, m.Rebuffs g (d.world.generator g).kind) ∧
        (e.world.Has (.generator g) → e.world.isExecuting g = true) ∧
        ∀ (program : Host ε) (inj : Injection) (external : Option RecordId) (rest : Multiset Handle),
          e.owned = .generator g ::ₘ ((inj.offered external : Multiset Handle) + rest) →
          (e.world.resume program g inj external).1 =
            .refused (.alreadyExecuting (d.world.generator g).kind))) := by
  have reached := (reached.kept (Config.start_sound host) mild).run
  have sound := reached.sound (Config.start_sound host)
  have orderly := reached.orderly (Config.start_sound host) (Config.start_orderly host)
  have sound' := step.sound sound
  constructor
  · intro steers
    obtain ⟨has, idle, done⟩ := step.released sound ends steers
    refine ⟨idle, fun panics after e later gently => ?_⟩
    have onward := (later.kept sound' gently).run
    have retired := onward.retired sound' (step.orderly sound orderly) (done panics) (World.lt_next_of_has has)
    exact ⟨retired.done.isCompleted, retired.done.isExecuting, fun program o external rest takes =>
      retired.resume (onward.sound sound') takes program⟩
  · intro strays
    cases l with
    | strayed t ending r =>
      obtain ⟨rfl, rfl⟩ := ends
      obtain ⟨-, status⟩ := step.strayed_status sound
      refine ⟨step.strayed_result sound, ?_, fun compiled after e later gently => ?_⟩
      · exact (step.moves sound).1.steady.isExecuting_eq sound.accounted sound'.accounted status fun _ => id
      · have onward := (later.kept sound' gently).run
        obtain ⟨stranded, rebuffs⟩ := onward.stranded sound' (step.strands sound orderly compiled)
        exact ⟨rebuffs, fun there => (stranded.stuck there).2.1, fun program inj external rest takes =>
          stranded.resume (onward.sound sound') takes program⟩
    | _ => cases strays

instance Label.decidableEnds (w : World ε) (g : GenId) (result : Resumption) :
    (l : Label) → Decidable (l.Ends w g result)
  | .answered k _ _ r => inferInstanceAs (Decidable (k = g ∧ r = result ∧ w.isExecuting g = false))
  | .ended t _ r => inferInstanceAs (Decidable (t.context = g ∧ r = result))
  | .strayed t _ r => inferInstanceAs (Decidable (t.context = g ∧ r = result))
  | .op _ | .quiet | .entered _ _ _ => .isFalse id

/-- A body panics with its frame on top of the stack. -/
theorem request_releases_panicked :
    ∃ (before : List Label) (c d : Config Unit) (l : Label),
      Course (fun _ _ => True) (Config.start ()) before c ∧ (∀ m ∈ before, m.Mild) ∧ Step c l d ∧
      l.Ends c.world 0 (.panicked (.body "broken")) ∧
      c.world.isExecuting 0 = true ∧ d.world.isExecuting 0 = false ∧ d.world.isCompleted 0 = true ∧
      ∀ program : Host Unit,
        (d.world.resume program 0 (.send nothing) none).1 = .refused (.exhausted .asyncGenerator) := by
  let code : Code := { module := "m", name := "f" }
  let breaks (_ : List Label) (c : Config Unit) : Bool :=
    c.world.isExecuting 0 && (c.play? (.stop (.panics (.body "broken")))).any fun s =>
      decide (s.1.Ends c.world 0 (.panicked (.body "broken"))) && !s.1.isStray &&
        decide ((s.2.world.generator 0).kind = .asyncGenerator) &&
          decide ((.generator 0 ::ₘ .object nothing ::ₘ 0 : Multiset Handle) ≤ s.2.owned)
  obtain ⟨before, c, run, holds⟩ := Config.exists_run (p := breaks)
    [.call (.newCompiled .asyncGenerator code none 0), .call (.clone (.object nothing)),
      .call (.clone (.object nothing)), .ask 0 (.send nothing) none]
    (by decide +kernel : ((Config.start ()).playAll? _).any _ = true)
  unfold breaks at holds
  simp only [Option.any_eq_true, Bool.and_eq_true, Bool.not_eq_true', decide_eq_true_eq] at holds
  obtain ⟨busy, ⟨l, d⟩, stopped, ⟨⟨ends, steers⟩, kind⟩, enough⟩ := holds
  have step := Config.step_of_play? stopped
  obtain ⟨reached, mild⟩ := (Kept.of_run run).course (Config.start_sound ())
  obtain ⟨released, -⟩ := request_releases () reached mild step ends
  obtain ⟨idle, final⟩ := released steers
  obtain ⟨completed, -, refuses⟩ := final rfl [] d .nil fun m none => absurd none List.not_mem_nil
  obtain ⟨rest, owned⟩ := Multiset.le_iff_exists_add.mp enough
  refine ⟨before, c, d, l, reached, mild, step, ends, busy, idle, completed, fun program => ?_⟩
  rw [kind] at refuses
  refine refuses program nothing none rest ?_
  rw [owned]
  simp [Injection.offered, Injection.held]

/-- Every body pushes the frame and returns. -/
def Host.pushing (f : FrameId) : Host ε where
  step := fun _ _ _ w => (.returns nothing, (w.push f).toOption.getD w)
  build := fun _ _ ip w => (.error (.builder ip), w)

/-- A context that has not begun is asked to go on, and its body leaves a frame behind. The request panics, the context
counts as executing, and so it refuses the next request. -/
theorem resume_strands :
    ∃ (before : List Label) (c : Config Unit),
      Run (Config.start ()) before c ∧ c.world.Has (.generator 0) ∧ c.world.isExecuting 0 = false ∧
      (c.world.resume (.pushing 1) 0 (.send nothing) none).1 = .panicked .unbalancedPop ∧
      (c.world.resume (.pushing 1) 0 (.send nothing) none).2.isExecuting 0 = true ∧
      (c.world.resume (.pushing 1) 0 (.send nothing) none).2.isCompleted 0 = false ∧
      ((c.world.resume (.pushing 1) 0 (.send nothing) none).2.resume (.pushing 1) 0 (.send nothing) none).1 =
        .refused (.alreadyExecuting .generator) := by
  let code : Code := { module := "m", name := "f" }
  let strands (_ : List Label) (c : Config Unit) : Bool :=
    let once := c.world.resume (.pushing 1) 0 (.send nothing) none
    decide (c.world.Has (.generator 0)) && decide (c.world.isExecuting 0 = false) &&
      decide (once.1 = .panicked .unbalancedPop) && decide (once.2.isExecuting 0 = true) &&
      decide (once.2.isCompleted 0 = false) &&
      decide ((once.2.resume (.pushing 1) 0 (.send nothing) none).1 = .refused (.alreadyExecuting .generator))
  obtain ⟨before, c, reached, holds⟩ := Config.exists_run (p := strands)
    [.call (.newCompiled .generator code none 0), .call (.newFrame code none)]
    (by decide +kernel : ((Config.start ()).playAll? _).any _ = true)
  simp only [strands, Bool.and_eq_true, decide_eq_true_eq] at holds
  obtain ⟨⟨⟨⟨⟨has, idle⟩, panics⟩, executing⟩, going⟩, refused⟩ := holds
  exact ⟨before, c, reached, has, idle, panics, executing, going, refused⟩

end Activation
