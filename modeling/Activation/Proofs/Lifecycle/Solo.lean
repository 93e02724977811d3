import Activation.Proofs.Conservation
import Activation.Proofs.HostState
import Activation.Proofs.Lifecycle.Dialogue
import Activation.Proofs.Stack.Tracks

/-! # A program with one context

A program that makes a context and does nothing but ask it to go on, one request after the other. What the requests
give follows from what has happened to the context so far, and the backing has no part in it.

* `World.Stands kind g past turns owned`: a program has come to this world; it holds these handles, these turns are
  under way, and `past` has happened to the context `g`.
* `World.Stands.addCompiled`, `World.Stands.addInterpreted`: how it begins.
* `World.Stands.enters`, `World.Stands.stops`: the begin and the end of a turn.
* `World.Stands.resume`: a request to a context at rest, whose body hands over a number.
* `World.Stands.refuses`: a request to a context that has finished.
-/

namespace Activation
set_option autoImplicit false

variable {ε : Type}

/-! ## What steps keep -/

theorem World.Immortal.has {w : World ε} {o : ObjId} (immortal : w.Immortal o) : w.Has (.object o) := by
  obtain ⟨x, found, -⟩ := immortal
  exact has_object.mpr ⟨x, found⟩

theorem Step.payload_eq {c d : Config ε} {l : Label} {o : ObjId} (sound : c.Sound) (step : Step c l d)
    (before : c.world.Has (.object o)) (after : d.world.Has (.object o)) :
    (d.world.object o).payload = (c.world.object o).payload := by
  obtain ⟨died, aged⟩ := Run.ages sound (.single step)
  obtain ⟨x, there⟩ := World.has_object.mp before
  obtain ⟨y, found⟩ := World.has_object.mp after
  obtain ⟨z, same, kept⟩ := aged.objects.old (c.world.objects.lt_next there) found
  simp only [World.object, same, found, Option.getD_some, kept.payload]

/-- The object without a value keeps having none. -/
theorem Step.void {c d : Config ε} {l : Label} (sound : c.Sound) (step : Step c l d)
    (void : (c.world.object nothing).isNone = true) : (d.world.object nothing).isNone = true := by
  have kept := step.payload_eq sound sound.nothing.has (step.sound sound).nothing.has
  simp only [Object.isNone, kept] at void ⊢
  exact void

namespace World

theorem stack_release (w : World ε) (o : ObjId) : (w.release o).stack = w.stack :=
  (steady_drop w [.object o]).stack.resolve_left id

theorem current_of_enter {w v : World ε} {f : FrameId} (entered : w.enter f = .ok v) : v.stack.current = some f := by
  unfold enter at entered
  cases pushed : w.push f with
  | error p => rw [pushed] at entered; cases entered
  | ok u =>
    rw [pushed] at entered
    cases entered
    exact congrArg Stack.current (stack_of_push pushed)

theorem payload_newInt (w : World ε) (n : Int) : ((w.newInt n).2.object (w.newInt n).1).payload = .int n := by
  simp [object, newInt, newObject, addObject]

end World

/-! ## Where the program stands -/

structure World.Stands (w : World ε) (kind : GeneratorKind) (g : GenId) (past : List Incident) (turns : List Turn)
    (owned : Multiset Handle) : Prop where
  told : ∃ es, (⟨w, turns, owned, 0⟩ : Config ε).Told g es ∧ pastOf es = past
  born : g < w.generators.next
  kind : w.Has (.generator g) → (w.generator g).kind = kind
  /-- A program that sends this object sends no value. -/
  void : (w.object nothing).isNone = true

/-- The body hands over an object, and may have more of them. -/
def Ending.handing (more : Bool) (o : ObjId) : Ending := if more then .yields o else .returns o

def Outcome.handing (more : Bool) (o : ObjId) : Outcome := if more then .yielded o else .returned o

namespace World.Stands

variable {w v : World ε} {kind : GeneratorKind} {g : GenId} {past : List Incident} {turns : List Turn}
  {owned rest : Multiset Handle}

theorem sound (stands : w.Stands kind g past turns owned) : (⟨w, turns, owned, 0⟩ : Config ε).Sound := by
  obtain ⟨es, told, -⟩ := stands.told
  obtain ⟨ls, lively, -⟩ := told.lively
  exact lively.sound

theorem has (stands : w.Stands kind g past turns owned) {h : Handle} (held : h ∈ owned) : w.Has h :=
  stands.sound.has_owned held

theorem inStage (stands : w.Stands kind g past turns owned) (has : w.Has (.generator g)) :
    (⟨w, turns, owned, 0⟩ : Config ε).InStage g past := by
  obtain ⟨es, told, same⟩ := stands.told
  obtain ⟨ls, lively, history⟩ := told.lively
  have stage := lively.stage g has
  rwa [history, same] at stage

theorem stacked (stands : w.Stands kind g past turns owned) : (⟨w, turns, owned, 0⟩ : Config ε).Stacked := by
  obtain ⟨es, told, -⟩ := stands.told
  exact told.stacked

/-! ## Steps -/

theorem step {l : Label} {later : List Turn} {left : Multiset Handle} (stands : w.Stands kind g past turns owned)
    (step : Step ⟨w, turns, owned, 0⟩ l ⟨v, later, left, 0⟩) (lawful : l.Lawful ⟨w, turns, owned, 0⟩)
    (tidy : l.Tidy ⟨w, turns, owned, 0⟩) : v.Stands kind g (past ++ (l.incident g).toList) later left where
  told := by
    obtain ⟨es, told, rfl⟩ := stands.told
    exact ⟨_, step.told told lawful tidy, by rw [pastOf_append, pastOf_exchange]⟩
  born := stands.born.trans_le (step.next_le stands.sound)
  kind has := by
    obtain ⟨before, same, -⟩ := step.keeps_context stands.sound stands.born has
    exact same.trans (stands.kind before)
  void := step.void stands.sound stands.void

/-- A call that makes a context. -/
theorem of_birth {op : Op} {x : Generator} {left : Multiset Handle}
    (told : (⟨w, [], owned, 0⟩ : Config ε).Told w.generators.next []) (void : (w.object nothing).isNone = true)
    (step : Step ⟨w, [], owned, 0⟩ (.op op) ⟨v, [], left, 0⟩) (lawful : op.Lawful ⟨w, [], owned, 0⟩)
    (tidy : op.Tidy ⟨w, [], owned, 0⟩) (made : v.generators = w.generators.insert x) :
    v.Stands x.kind w.generators.next [] [] left where
  told := ⟨_, step.told told lawful tidy, rfl⟩
  born := by
    rw [made, Store.next_insert]
    exact Nat.lt_succ_self _
  kind _ := by simp [generator, made]
  void := by
    obtain ⟨ls, lively, -⟩ := told.lively
    exact step.void lively.sound void

theorem addCompiled (kind : GeneratorKind) (code : Code) (body : BodyId)
    (told : (⟨w, [], 0, 0⟩ : Config ε).Told w.generators.next []) (void : (w.object nothing).isNone = true) :
    (w.addCompiled kind code none body).2.Stands kind w.generators.next [] [] {.generator w.generators.next} := by
  have step := Step.op (c := ⟨w, [], 0, 0⟩) (.newCompiled kind code none body) (by simp [Op.names]) trivial
    (Multiset.zero_add 0).symm trivial
  exact of_birth told void step trivial trivial rfl

theorem addInterpreted (kind : GeneratorKind) (code : Code) (body : BodyId)
    (told : (⟨w, [], 0, 0⟩ : Config ε).Told w.generators.next []) (void : (w.object nothing).isNone = true) :
    ((w.addRecord { code }).2.addInterpreted kind w.records.next body).2.Stands kind w.generators.next [] []
      {.generator w.generators.next} := by
  have first := Step.op (c := ⟨w, [], 0, 0⟩) (.newRecord { code }) (by simp [Op.names]) rfl (Multiset.zero_add 0).symm
    trivial
  have later : (⟨(w.addRecord { code }).2, [], {.record w.records.next}, 0⟩ : Config ε).Told w.generators.next [] :=
    first.told told trivial trivial
  have second := Step.op (c := ⟨(w.addRecord { code }).2, [], {.record w.records.next}, 0⟩)
    (.newInterpreted kind w.records.next body) (by simp [Op.names]) trivial (Multiset.add_zero _).symm trivial
  refine of_birth later void second ?_ trivial rfl
  simp [Op.Lawful, World.record, World.addRecord]

theorem quiet (stands : w.Stands kind g past turns owned) (same : w.Quiet v) : v.Stands kind g past turns owned := by
  simpa [Label.incident] using stands.step (.quiet same) trivial trivial

theorem call (op : Op) (stands : w.Stands kind g past turns (↑op.takes + rest)) (named : ∀ h ∈ op.names, w.Has h)
    (fits : op.Fits w) (lawful : op.Lawful ⟨w, turns, ↑op.takes + rest, 0⟩)
    (tidy : op.Tidy ⟨w, turns, ↑op.takes + rest, 0⟩) (mild : op.Mild) :
    (op.run w).2.Stands kind g past turns (↑(op.run w).1 + rest) := by
  simpa [Label.incident] using stands.step (.op op named fits rfl mild) lawful tidy

theorem drop {h : Handle} (stands : w.Stands kind g past turns (h ::ₘ rest)) :
    (w.drop [h]).Stands kind g past turns rest := by
  have held : h ::ₘ rest = ↑(Op.drop h).takes + rest := by simp [Op.takes]
  rw [held] at stands
  simpa [Op.run] using stands.call (.drop h) (by simp [Op.names]) trivial trivial trivial trivial

theorem newInt (stands : w.Stands kind g past turns owned) (n : Int) :
    (w.newInt n).2.Stands kind g past turns (.object (w.newInt n).1 ::ₘ owned) := by
  have held : owned = ↑(Op.newObject .int (.int n)).takes + owned := by simp [Op.takes, Object.held]
  rw [held] at stands
  have called := stands.call (.newObject .int (.int n)) (by simp [Op.names]) trivial trivial trivial trivial
  simpa [Op.run, World.newInt] using called

/-- Handles on the object without a value are free. -/
theorem mint (stands : w.Stands kind g past turns owned) : w.Stands kind g past turns (.object nothing ::ₘ owned) where
  told := by
    obtain ⟨es, told, same⟩ := stands.told
    obtain ⟨ls, lively, history⟩ := told.lively
    have acc := lively.sound.accounted.mint lively.sound.nothing
    refine ⟨es, ⟨⟨ls, ⟨⟨?_, lively.sound.calm, lively.sound.nothing⟩, ?_, lively.priv, fun g has => ?_, lively.unborn⟩,
      history⟩, ?_, told.closing, told.unborn, told.answered⟩, same⟩
    · simpa [Config.outside, Config.reserved] using acc
    · exact ⟨lively.orderly.once, lively.orderly.away⟩
    · have stage := lively.stage g has
      exact ⟨stage.shows, stage.counted, stage.turn, stage.ready, stage.entered⟩
    · exact ⟨fun g has => ⟨(told.stacked.placed g has).single, (told.stacked.placed g has).idle⟩, told.stacked.frame⟩
  born := stands.born
  kind := stands.kind
  void := stands.void

theorem mint_under {h : Handle} (stands : w.Stands kind g past turns (h ::ₘ rest)) :
    w.Stands kind g past turns (h ::ₘ .object nothing ::ₘ rest) := by
  rw [Multiset.cons_swap]
  exact stands.mint

/-! ## Requests -/

theorem takes_nothing : (.generator g ::ₘ .object nothing ::ₘ rest : Multiset Handle) =
    .generator g ::ₘ (((Injection.send nothing).offered none : Multiset Handle) + rest) := by
  simp [Injection.offered, Injection.held]

theorem answered_step {result : Resumption} (received : w.receive g (.send nothing) none = .answered result v) :
    Step ⟨w, turns, .generator g ::ₘ .object nothing ::ₘ rest, 0⟩
      (.answered g (.send nothing) none (settlePanic result v).1)
      ⟨(settlePanic result v).2, turns, .generator g ::ₘ (↑(settlePanic result v).1.held + rest), 0⟩ :=
  .answered (c := ⟨w, turns, .generator g ::ₘ .object nothing ::ₘ rest, 0⟩) takes_nothing received

theorem entered_step {t : Turn} (received : w.receive g (.send nothing) none = .entered t v) :
    Step ⟨w, turns, .generator g ::ₘ .object nothing ::ₘ rest, 0⟩ (.entered t (.send nothing) none)
      ⟨v, t :: turns, ↑(Injection.send nothing).held + rest, 0⟩ :=
  .entered (c := ⟨w, turns, .generator g ::ₘ .object nothing ::ₘ rest, 0⟩) takes_nothing received

theorem sendsValue_nothing (stands : w.Stands kind g past turns owned) : w.sendsValue (.send nothing) = false := by
  simp [sendsValue, stands.void]

theorem entered_turn {t : Turn} (stands : w.Stands kind g past turns (.generator g ::ₘ .object nothing ::ₘ rest))
    (received : w.receive g (.send nothing) none = .entered t v) :
    t.context = g ∧ t.closing = false ∧ v.stack.current = some t.frame := by
  have acc := stands.sound.accounted
  rw [Config.outside_of_request _ takes_nothing] at acc
  obtain ⟨body, -, turn, entered⟩ := receive_entered acc (Multiset.mem_cons_self _ _) stands.sound.calm received
  exact ⟨by rw [turn], by rw [turn]; rfl, current_of_enter entered⟩

/-- A context at rest hands a request without a value to its body. -/
theorem enters (stands : w.Stands kind g past turns (.generator g ::ₘ .object nothing ::ₘ rest))
    (idle : (stageOf past).isRunnable = true) :
    ∃ t v, w.receive g (.send nothing) none = .entered t v ∧ t.context = g ∧ t.closing = false ∧
      v.stack.current = some t.frame ∧
      v.Stands kind g (past ++ [.begun false]) (t :: turns) (.object nothing ::ₘ rest) := by
  have stage := stands.inStage (stands.has (Multiset.mem_cons_self _ _))
  cases received : w.receive g (.send nothing) none with
  | answered result v =>
    have answer := (answered_step received).answer stands.sound stands.stacked stage
    rw [stands.sendsValue_nothing] at answer
    cases rests : stageOf past with
    | fresh => rw [rests] at answer; cases answer
    | suspended => rw [rests] at answer; cases answer
    | _ => rw [rests] at idle; cases idle
  | entered t v =>
    obtain ⟨own, calling, top⟩ := stands.entered_turn received
    have begun := stands.step (entered_step received) (fun r named => by cases named) trivial
    refine ⟨t, v, rfl, own, calling, top, ?_⟩
    simpa [Label.incident, own, Injection.isThrowing, Injection.held] using begun

/-- A context that has finished refuses to go on. -/
theorem refuses (stands : w.Stands kind g past turns (.generator g ::ₘ .object nothing ::ₘ rest))
    (finished : stageOf past = .finished) (program : Host ε) :
    ∃ v, w.resume program g (.send nothing) none = (.refused (.exhausted kind), v) ∧
      v.Stands kind g past turns (.generator g ::ₘ rest) := by
  have has := stands.has (Multiset.mem_cons_self _ _)
  have stage := stands.inStage has
  cases received : w.receive g (.send nothing) none with
  | answered result v =>
    have answer := (answered_step received).answer stands.sound stands.stacked stage
    rw [finished, stands.kind has] at answer
    have refused : (settlePanic result v).1 = .refused (.exhausted kind) := (Option.some.inj answer).symm
    have answered := stands.step (answered_step received) (fun r named => by cases named) trivial
    refine ⟨(settlePanic result v).2, ?_, ?_⟩
    · simp only [resume, attempt, received]
      rw [← refused]
    · simpa [Label.incident, refused, Resumption.isRefusal, Resumption.held] using answered
  | entered t v =>
    obtain ⟨rfl, -, -⟩ := stands.entered_turn received
    have none := (entered_step received).no_answer stands.sound stage
    rw [finished] at none
    cases none

/-- The body stops, and the request is answered by the way it stops. -/
theorem stops {t : Turn} {ending : Ending} (stands : w.Stands kind g past (t :: turns) (↑ending.held + rest))
    (own : t.context = g) (balanced : w.stack.current = some t.frame) :
    (w.finish t ending).1 = ending.settled kind t.closing ∧
    (w.finish t ending).2.Stands kind g (past ++ [if ending.isYield then .yielded else .finished]) turns
      (.generator g ::ₘ (↑(ending.settled kind t.closing).held + rest)) ∧
    ∀ o, w.Has (.object o) → (w.finish t ending).2.Has (.object o) →
      ((w.finish t ending).2.object o).payload = (w.object o).payload := by
  have step := Step.ended (c := ⟨w, t :: turns, ↑ending.held + rest, 0⟩) rfl balanced rfl
  have has := stands.sound.has_turn (List.mem_cons_self ..)
  have answer := step.settled stands.sound
  rw [own] at has
  rw [own, stands.kind has] at answer
  have stopped := stands.step step trivial trivial
  refine ⟨answer, ?_, fun o before after => ?_⟩
  · simpa [Label.incident, own, answer] using stopped
  · have kept := step.payload_eq stands.sound before after
    exact kept

/-! ## Bodies that hand over a number -/

theorem hands {t : Turn} {o : ObjId} (more : Bool) (stands : w.Stands kind g past [t] {.object o})
    (own : t.context = g) (calling : t.closing = false) (balanced : w.stack.current = some t.frame) :
    (w.finish t (.handing more o)).1 = .done (.handing more o) ∧
    (w.finish t (.handing more o)).2.Stands kind g (past ++ [if more then .yielded else .finished]) []
      (.object o ::ₘ {.generator g}) ∧
    ((w.finish t (.handing more o)).2.object o).payload = (w.object o).payload := by
  have has := stands.has (Multiset.mem_singleton_self _)
  have held : ({.object o} : Multiset Handle) = ↑(Ending.handing more o).held + 0 := by cases more <;> rfl
  rw [held] at stands
  obtain ⟨answer, stopped, kept⟩ := stands.stops own balanced
  have settled : (Ending.handing more o).settled kind t.closing = .done (.handing more o) := by
    rw [calling]
    cases more <;> rfl
  have kinds : (Ending.handing more o).isYield = more := by cases more <;> rfl
  have given : .generator g ::ₘ (↑(Resumption.done (.handing more o)).held + 0) =
      (.object o ::ₘ {.generator g} : Multiset Handle) := by
    cases more <;> exact Multiset.cons_swap (Handle.generator g) (Handle.object o) 0
  rw [settled, kinds, given] at stopped
  exact ⟨answer.trans settled, stopped, kept o has (stopped.has (Multiset.mem_cons_self _ _))⟩

/-- A request to a body that gives back what it is sent, changes the state of its host and hands over a number. -/
theorem resume (program : Host ε) (change : ε → ε) (n : Int) (more : Bool)
    (stands : w.Stands kind g past [] {.generator g}) (idle : (stageOf past).isRunnable = true)
    (step : ∀ body v, v.host = w.host → program.step body g (.sent nothing) v =
      (.handing more (((v.release nothing).modifyHost change).newInt n).1,
        (((v.release nothing).modifyHost change).newInt n).2)) :
    ∃ o v, w.resume program g (.send nothing) none = (.done (.handing more o), v) ∧
      v.Stands kind g (past ++ [.begun false] ++ [if more then .yielded else .finished]) []
        (.object o ::ₘ {.generator g}) ∧
      v.host = change w.host ∧ (v.object o).asInt = some n := by
  obtain ⟨t, u, received, own, calling, top, begun⟩ := stands.mint_under.enters idle
  have same : u.host = w.host := by
    have kept := w.host_receive g (.send nothing) none
    rwa [received] at kept
  have ran := step t.body u same
  -- the body, step by step
  have freed : (u.release nothing).Stands kind g (past ++ [.begun false]) [t] 0 := begun.drop
  have changed : ((u.release nothing).modifyHost change).Stands kind g (past ++ [.begun false]) [t] 0 :=
    freed.quiet ⟨rfl, rfl, rfl, rfl, rfl, rfl, rfl⟩
  have made := changed.newInt n
  generalize named : (((u.release nothing).modifyHost change).newInt n).1 = o at made ran
  generalize world : (((u.release nothing).modifyHost change).newInt n).2 = b at made ran
  have balanced : b.stack.current = some t.frame := by
    rw [← world, ← top, ← stack_release u nothing]
    rfl
  have state : b.host = change w.host := by
    rw [← world, ← same, ← u.host_release nothing]
    rfl
  have number : (b.object o).payload = .int n := by rw [← named, ← world, payload_newInt]
  obtain ⟨answer, after, kept⟩ := made.hands more own calling balanced
  refine ⟨o, (b.finish t (.handing more o)).2, ?_, after, (b.host_finish t _).trans state, ?_⟩
  · simp only [World.resume, attempt, received, Injection.input, ran]
    rw [← answer]
    rfl
  · rw [Object.asInt, kept, number]

end World.Stands

end Activation
