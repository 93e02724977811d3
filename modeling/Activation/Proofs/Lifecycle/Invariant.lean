import Activation.Proofs.Lifecycle.Privacy
import Activation.Proofs.Play

/-! # The lifecycle of a context

In a lawful program every context is at the stage that its history says, in every state and also while bodies
run.

* `Config.InStage c g past`: the context `g` is where the history `past` puts it.
* `Step.inStage`: one step takes every context to its next stage.
* `Kept.lively`: so does every lawful run.
* `Config.Lifecycle`: what everybody can see of a context, in terms of its history and of the turns under way.
* `lifecycle_invariant`: the whole of it, for every lawful run, with the changes of state that can occur.
-/

namespace Activation
set_option autoImplicit false

variable {ε : Type}

/-! ## A context at its stage -/

structure Config.InStage (c : Config ε) (g : GenId) (past : List Incident) : Prop where
  shows : c.world.Shows g (yieldsOf past) (stageOf past)
  counted : (c.world.generator g).yields = yieldsOf past
  turn : (stageOf past).isExecuting = true ↔ ∃ t ∈ c.turns, t.context = g
  ready : (stageOf past).isRunnable = true → (c.world.generator g).body.isSome
  entered : stageOf past = .suspended → ∃ throwing, .begun throwing ∈ past

namespace Config.InStage

variable {c d : Config ε} {g : GenId} {past : List Incident}

theorem isExecuting (stage : c.InStage g past) : c.world.isExecuting g = (stageOf past).isExecuting :=
  stage.shows.isExecuting yieldsOf_pos

theorem isRunnable (stage : c.InStage g past) : c.world.isRunnable g = (stageOf past).isRunnable :=
  stage.shows.isRunnable yieldsOf_pos

theorem yieldPoint (stage : c.InStage g past) :
    c.world.yieldPoint g = if stageOf past = .suspended then some (yieldsOf past) else none :=
  stage.shows.yieldPoint yieldsOf_pos stage.counted

theorem runnable (stage : c.InStage g past) (idle : c.world.isExecuting g = false)
    (going : c.world.isCompleted g = false) : (stageOf past).isRunnable = true := by
  rw [stage.isExecuting] at idle
  rw [stage.shows.isCompleted] at going
  cases reached : stageOf past with
  | fresh => rfl
  | suspended => rfl
  | stepping throwing => rw [reached] at idle; cases idle
  | finished => rw [reached] at going; simp at going

theorem rest (stage : c.InStage g past) (runnable : (stageOf past).isRunnable = true) :
    ¬ ∃ t ∈ c.turns, t.context = g := by
  intro turn
  have executing := stage.turn.mpr turn
  cases reached : stageOf past with
  | stepping throwing => rw [reached] at runnable; cases runnable
  | _ => rw [reached] at executing; cases executing

/-- Nothing happens to the context or its record. -/
theorem keep {F : Footprint} {out rest : Multiset Handle} (stage : c.InStage g past)
    (acc : Accounted c.world out) (acc' : Accounted d.world rest) (steady : Steady F c.world d.world)
    (status : d.world.status g = c.world.status g)
    (free : ∀ r, (c.world.generator g).live = some r → ¬ F.records r)
    (turns : (∃ t ∈ d.turns, t.context = g) ↔ ∃ t ∈ c.turns, t.context = g) : d.InStage g past where
  shows := by
    have same : (d.world.generator g).backing = (c.world.generator g).backing := congrArg Status.backing status
    have before := stage.shows
    generalize stageOf past = p at before ⊢
    cases before with
    | compiled backing => exact .compiled (same.trans backing)
    | @live _ r backing state start =>
      have live : (c.world.generator g).live = some r := by rw [Generator.live, backing]
      have live' : (d.world.generator g).live = some r := by rw [Generator.live, same, backing]
      obtain ⟨x, found⟩ := Option.isSome_iff_exists.mp (acc.has_record live)
      obtain ⟨state', start'⟩ :=
        steady.record_eq (free r live) (c.world.records.lt_next found) (acc'.has_record live')
      exact .live (same.trans backing) (state'.symm ▸ state) (start'.trans start)
    | retired backing => exact .retired (same.trans backing)
  counted := (congrArg Status.yields status).trans stage.counted
  turn := stage.turn.trans turns.symm
  ready runnable := by
    have same : (d.world.generator g).body = (c.world.generator g).body := congrArg Status.body status
    rw [same]
    exact stage.ready runnable
  entered := stage.entered

theorem closed (stage : c.InStage g past) (completed : c.world.isCompleted g = true) :
    (c.world.status g).backing = (c.world.status g).backing.closed := by
  rw [stage.shows.isCompleted, decide_eq_true_eq] at completed
  have before := stage.shows
  rw [completed] at before
  show (c.world.generator g).backing = (c.world.generator g).backing.closed
  cases before with
  | compiled backing =>
    rw [backing]
    rfl
  | live backing state => cases state
  | retired backing =>
    rw [backing]
    rfl

theorem close (stage : c.InStage g past)
    (backing : (d.world.status g).backing = (c.world.status g).backing.closed)
    (yields : (d.world.status g).yields = (c.world.status g).yields)
    (turns : ¬ ∃ t ∈ d.turns, t.context = g) : d.InStage g (past ++ [.finished]) := by
  have counted : yieldsOf (past ++ [.finished]) = yieldsOf past := by simp [yieldsOf_concat]
  have final : stageOf (past ++ [.finished]) = .finished := stageOf_concat past .finished
  refine ⟨?_, ?_, ?_, ?_, ?_⟩
  · rw [final]
    cases before : (c.world.status g).backing with
    | compiled state n =>
      rw [before] at backing
      exact .compiled backing
    | interpreted live =>
      rw [before] at backing
      exact .retired backing
  · rw [counted]
    exact yields.trans stage.counted
  · rw [final]
    exact ⟨nofun, fun turn => absurd turn turns⟩
  · rw [final]
    nofun
  · rw [final]
    nofun

theorem begin {throwing : Bool} (stage : c.InStage g past) (runnable : (stageOf past).isRunnable = true)
    (status : d.world.status g = (c.world.status g).begun throwing)
    (record : ∀ r, (c.world.generator g).backing = .interpreted (some r) →
      (d.world.record r).state = .executing ∧ (d.world.record r).lastInstr ≠ -1)
    (turns : ∃ t ∈ d.turns, t.context = g) : d.InStage g (past ++ [.begun throwing]) := by
  have counted : yieldsOf (past ++ [.begun throwing]) = yieldsOf past := by simp [yieldsOf_concat]
  have next : stageOf (past ++ [.begun throwing]) = .stepping throwing := stageOf_concat past _
  have after : (d.world.generator g).backing = (c.world.generator g).backing.begun throwing :=
    congrArg Status.backing status
  refine ⟨?_, ?_, ?_, ?_, ?_⟩
  · rw [next]
    have before := stage.shows
    generalize stageOf past = p at before runnable
    cases before with
    | compiled backing =>
      rw [backing] at after
      cases p <;> exact .compiled after
    | @live _ r backing =>
      obtain ⟨state, start⟩ := record r backing
      rw [backing] at after
      exact .live after (congrArg some state.symm) ⟨fun place => absurd place start, nofun⟩
    | retired => cases runnable
  · rw [counted]
    exact (congrArg Status.yields status).trans stage.counted
  · rw [next]
    exact ⟨fun _ => turns, fun _ => rfl⟩
  · rw [next]
    nofun
  · rw [next]
    nofun

theorem suspend {body : BodyId} {o : ObjId} (stage : c.InStage g past)
    (executing : (stageOf past).isExecuting = true)
    (status : d.world.status g = (c.world.status g).after body (.yields o))
    (record : ∀ r, (c.world.generator g).backing = .interpreted (some r) →
      (d.world.record r).state = .suspended ∧
        ((d.world.record r).lastInstr = -1 ↔ (c.world.record r).lastInstr = -1))
    (turns : ¬ ∃ t ∈ d.turns, t.context = g) : d.InStage g (past ++ [.yielded]) := by
  have counted : yieldsOf (past ++ [.yielded]) = yieldsOf past + 1 := by simp [yieldsOf_concat]
  have next : stageOf (past ++ [.yielded]) = .suspended := stageOf_concat past _
  have after : (d.world.generator g).backing = (c.world.generator g).backing.paused (yieldsOf past + 1) := by
    rw [← stage.counted]
    exact congrArg Status.backing status
  have stepping : ∃ throwing, stageOf past = .stepping throwing := by
    cases place : stageOf past with
    | stepping throwing => exact ⟨throwing, rfl⟩
    | _ => rw [place] at executing; cases executing
  refine ⟨?_, ?_, ?_, ?_, ?_⟩
  · rw [next, counted]
    have before := stage.shows
    obtain ⟨throwing, eq⟩ := stepping
    rw [eq] at before
    cases before with
    | compiled backing =>
      rw [backing] at after
      exact .compiled after
    | @live _ r backing _ start =>
      -- the position has left the start when the body began, and a yield does not move it
      obtain ⟨state, start'⟩ := record r backing
      rw [backing] at after
      refine .live after (congrArg some state.symm) ⟨fun place => ?_, nofun⟩
      cases start.mp (start'.mp place)
  · rw [counted, ← stage.counted]
    exact congrArg Status.yields status
  · rw [next]
    exact ⟨nofun, fun turn => absurd turn turns⟩
  · intro _
    have body : (d.world.generator g).body = some body := congrArg Status.body status
    rw [body]
    rfl
  · intro _
    obtain ⟨throwing, eq⟩ := stepping
    exact ⟨throwing, List.mem_append_left _ (begun_of_stepping eq)⟩

end Config.InStage

/-! ## Steps -/

namespace Step

variable {c d : Config ε} {l : Label} {g : GenId} {past : List Incident}

theorem bystander (sound : c.Sound) (priv : c.world.Private) (step : Step c l d) (lawful : l.Lawful c)
    (stage : c.InStage g past) (before : c.world.Has (.generator g)) (after : d.world.Has (.generator g))
    (other : ¬ (l.footprint c.world).contexts g)
    (turns : (∃ t ∈ d.turns, t.context = g) ↔ ∃ t ∈ c.turns, t.context = g) : d.InStage g past :=
  stage.keep sound.accounted (step.sound sound).accounted (step.moves sound).1.steady
    (step.status_eq sound other (World.lt_next_of_has before) after)
    (fun _ live => step.records_free sound priv lawful live other) turns

theorem answered_inStage {inj : Injection} {external : Option RecordId} {result : Resumption} (sound : c.Sound)
    (step : Step c (.answered g inj external result) d) (stage : c.InStage g past) :
    d.InStage g (past ++ ((Label.answered g inj external result).incident g).toList) := by
  have accounted := (step.sound sound).accounted
  have same : d.turns = c.turns := step.turns_eq
  have turns : (∃ t ∈ d.turns, t.context = g) ↔ ∃ t ∈ c.turns, t.context = g := by rw [same]
  have idle : c.world.isExecuting g = false → ¬ ∃ t ∈ d.turns, t.context = g := by
    intro idle turn
    rw [stage.isExecuting, stage.turn.mpr (turns.mp turn)] at idle
    cases idle
  cases step.reply sound with
  | refused judged steady status =>
    have kept := stage.keep sound.accounted accounted steady status (fun _ _ => id) turns
    simpa [Label.incident, Resumption.isRefusal] using kept
  | ignored judged steady status =>
    cases judged with
    | ignored still completed =>
      -- the context has finished before, and finishing once more changes nothing
      have closed := stage.close (d := d) (status ▸ stage.closed completed) (by rw [status]) (idle still)
      simpa [Label.incident, Resumption.isRefusal] using closed
  | finished judged status =>
    cases judged with
    | finished still =>
      have closed := stage.close (d := d) (by rw [status]; rfl) (by rw [status]; rfl) (idle still)
      simpa [Label.incident, Resumption.isRefusal] using closed
  | stuck judged linked status =>
    cases judged with
    | entered still =>
      have closed := stage.close (d := d) (by rw [status]; exact Backing.closed_begun _ _)
        (by rw [status]; rfl) (idle still)
      simpa [Label.incident, Resumption.isRefusal] using closed

theorem entered_inStage {t : Turn} {inj : Injection} {external : Option RecordId} (sound : c.Sound)
    (priv : c.world.Private) (step : Step c (.entered t inj external) d) (stage : c.InStage t.context past) :
    d.InStage t.context (past ++ [.begun inj.isThrowing]) ∧ (stageOf past).isRunnable = true := by
  obtain ⟨body, judged, -, turns, status⟩ := step.entered_status sound
  have runnable : (stageOf past).isRunnable = true := by
    cases judged with
    | entered idle going => exact stage.runnable idle going
  refine ⟨stage.begin runnable status (fun r backing => ?_) ⟨t, ?_, rfl⟩, runnable⟩
  · exact step.entered_record sound backing (priv.own (by rw [Generator.live, backing]))
  · rw [turns]
    exact List.mem_cons_self ..

theorem ended_inStage {t : Turn} {ending : Ending} {result : Resumption} (sound : c.Sound) (orderly : c.Orderly)
    (step : Step c (.ended t ending result) d) (stage : c.InStage t.context past) :
    d.InStage t.context (past ++ [if ending.isYield then .yielded else .finished]) ∧
      (stageOf past).isExecuting = true := by
  obtain ⟨turns, -, -, status⟩ := step.ended_status sound
  have executing : (stageOf past).isExecuting = true :=
    stage.turn.mpr ⟨t, by rw [turns]; exact List.mem_cons_self .., rfl⟩
  have gone : ¬ ∃ u ∈ d.turns, u.context = t.context := by
    rintro ⟨u, member, own⟩
    have once := orderly.once
    rw [turns, List.map_cons, List.nodup_cons] at once
    exact once.1 (List.mem_map.mpr ⟨u, member, own⟩)
  refine ⟨?_, executing⟩
  cases yields : ending.isYield with
  | true =>
    cases ending with
    | yields o => exact stage.suspend executing status (fun r => step.ended_record sound rfl) gone
    | _ => cases yields
  | false =>
    refine stage.close (by rw [status, Status.backing_after _ _ yields]) ?_ gone
    rw [status]
    cases ending with
    | yields o => cases yields
    | _ => rfl

theorem inStage (sound : c.Sound) (orderly : c.Orderly) (priv : c.world.Private) (step : Step c l d)
    (lawful : l.Lawful c) (stage : c.InStage g past) (before : c.world.Has (.generator g))
    (after : d.world.Has (.generator g)) : d.InStage g (past ++ (l.incident g).toList) := by
  have bystander := step.bystander sound priv lawful stage before after
  cases l with
  | op call =>
    have same : d.turns = c.turns := step.turns_eq
    simpa [Label.incident] using bystander (call.not_contexts _ _) (by rw [same])
  | quiet =>
    have same : d.turns = c.turns := step.turns_eq
    simpa [Label.incident] using bystander id (by rw [same])
  | answered k inj external result =>
    by_cases own : k = g
    · subst own
      exact step.answered_inStage sound stage
    · have same : d.turns = c.turns := step.turns_eq
      simpa [Label.incident, own] using bystander (fun eq => own eq.symm) (by rw [same])
  | entered t inj external =>
    by_cases own : t.context = g
    · subst own
      simpa [Label.incident] using (step.entered_inStage sound priv stage).1
    · obtain ⟨body, -, -, turns, -⟩ := step.entered_status sound
      simpa [Label.incident, own] using bystander (fun eq => own eq.symm) (by simp [turns, own])
  | ended t ending result =>
    by_cases own : t.context = g
    · subst own
      simpa [Label.incident] using (step.ended_inStage sound orderly stage).1
    · obtain ⟨turns, -, -, -⟩ := step.ended_status sound
      simpa [Label.incident, own] using bystander (fun eq => own eq.symm) (by simp [turns, own])
  | strayed t ending result => exact lawful.elim

/-- A body begins from rest, and yields from a turn. -/
theorem incident_stage {i : Incident} (sound : c.Sound) (orderly : c.Orderly) (priv : c.world.Private)
    (step : Step c l d) (stage : c.InStage g past) (happened : l.incident g = some i) :
    (∀ throwing, i = .begun throwing → (stageOf past).isRunnable = true) ∧
      (i = .yielded → (stageOf past).isExecuting = true) := by
  cases l with
  | answered k inj external result =>
    simp only [Label.incident, Option.ite_none_right_eq_some, Option.some.injEq] at happened
    obtain ⟨-, rfl⟩ := happened
    exact ⟨nofun, nofun⟩
  | entered t inj external =>
    simp only [Label.incident, Option.ite_none_right_eq_some, Option.some.injEq] at happened
    obtain ⟨rfl, rfl⟩ := happened
    exact ⟨fun _ _ => (step.entered_inStage sound priv stage).2, nofun⟩
  | ended t ending result =>
    simp only [Label.incident, Option.ite_none_right_eq_some, Option.some.injEq] at happened
    obtain ⟨rfl, rfl⟩ := happened
    refine ⟨fun throwing begun => ?_, fun _ => (step.ended_inStage sound orderly stage).2⟩
    cases yields : ending.isYield <;> simp [yields] at begun
  | _ => cases happened

theorem newborn (sound : c.Sound) (step : Step c l d) (late : c.world.generators.next ≤ g)
    (after : d.world.Has (.generator g)) :
    (∃ kind code builder body, l = .op (.newCompiled kind code builder body) ∧
      d.world.generator g =
        { kind, frame := c.world.frames.next, backing := .compiled .justStarted 0, body := some body }) ∨
    ∃ kind r body, l = .op (.newInterpreted kind r body) ∧
      d.world.generator g =
        { kind, frame := c.world.frames.next, backing := .interpreted (some r), body := some body } := by
  obtain ⟨y, found⟩ := Option.isSome_iff_exists.mp after
  have births : (l.footprint c.world).births := by
    rcases (step.moves sound).1.steady.generators.origin g y found with ⟨x, there, -⟩ | ⟨-, births⟩
    · exact absurd (c.world.generators.lt_next there) (Nat.not_lt.mpr late)
    · exact births
  have first : ∀ x : Generator, d.world.generators = c.world.generators.insert x → d.world.generator g = x := by
    intro x inserted
    rw [World.generator_insert inserted, if_pos]
    have below := d.world.generators.lt_next found
    rw [inserted, Store.next_insert] at below
    exact Nat.le_antisymm (Nat.le_of_lt_succ below) late
  cases step with
  | @op call rest named fits takes =>
    cases call with
    | newCompiled kind code builder body => exact .inl ⟨kind, code, builder, body, rfl, first _ rfl⟩
    | newInterpreted kind r body => exact .inr ⟨kind, r, body, rfl, first _ rfl⟩
    | _ => cases births
  | _ => cases births

theorem born (sound : c.Sound) (step : Step c l d) (lawful : l.Lawful c) (late : c.world.generators.next ≤ g)
    (after : d.world.Has (.generator g)) : d.InStage g [] := by
  -- the contexts of all turns were there before
  have idle : ¬ ∃ t ∈ c.turns, t.context = g := by
    rintro ⟨t, member, rfl⟩
    exact absurd (World.lt_next_of_has (sound.has_turn member)) (Nat.not_lt.mpr late)
  rcases step.newborn sound late after with ⟨kind, code, builder, body, rfl, made⟩ | ⟨kind, r, body, rfl, made⟩
  · have turns : d.turns = c.turns := step.turns_eq
    refine ⟨.compiled ?_, ?_, ⟨nofun, fun turn => absurd (turns ▸ turn) idle⟩, fun _ => ?_, nofun⟩
    · rw [made]; rfl
    · rw [made]; rfl
    · rw [made]; rfl
  · obtain ⟨created, start, -⟩ := lawful
    have turns : d.turns = c.turns := step.turns_eq
    have records : d.world.records = (c.world.holdRecord r).records := by cases step; rfl
    have state : (d.world.record r).state = .created := by
      rw [World.record, records, ← created]
      exact World.record_modifyRecord Record.state c.world r r (fun x => { x with owners := x.owners + 1 })
        fun _ => rfl
    have position : (d.world.record r).lastInstr = -1 := by
      rw [World.record, records, ← start]
      exact World.record_modifyRecord Record.lastInstr c.world r r (fun x => { x with owners := x.owners + 1 })
        fun _ => rfl
    refine ⟨.live (r := r) ?_ (congrArg some state.symm) ⟨fun _ => rfl, fun _ => position⟩, ?_,
      ⟨nofun, fun turn => absurd (turns ▸ turn) idle⟩, fun _ => ?_, nofun⟩
    · rw [made]
    · rw [made]; rfl
    · rw [made]; rfl

end Step

/-! ## Runs -/

/-- A rule for programs that leave the records of contexts alone and do not stray. -/
def lawful (c : Config ε) (l : Label) : Prop := l.Lawful c

instance lawful.decidable (c : Config ε) (l : Label) : Decidable (lawful c l) :=
  inferInstanceAs (Decidable (l.Lawful c))

structure Config.Lively (c : Config ε) (ls : List Label) : Prop where
  sound : c.Sound
  orderly : c.Orderly
  priv : c.world.Private
  stage : ∀ g, c.world.Has (.generator g) → c.InStage g (history g ls)
  unborn : ∀ g, c.world.generators.next ≤ g → history g ls = []

theorem Label.incident_unborn {c d : Config ε} {l : Label} {g : GenId} (sound : c.Sound) (step : Step c l d)
    (late : c.world.generators.next ≤ g) : l.incident g = none := by
  have absent : ∀ {k}, c.world.Has (.generator k) → k ≠ g := by
    rintro k has rfl
    exact absurd (World.lt_next_of_has has) (Nat.not_lt.mpr late)
  cases l with
  | answered k inj external result => simp [incident, absent (step.has_asked sound).1]
  | entered t inj external => simp [incident, absent (step.has_entered sound).1]
  | ended t ending result => simp [incident, absent (step.has_ended sound).1]
  | _ => rfl

theorem history_concat (g : GenId) (ls : List Label) (l : Label) :
    history g (ls ++ [l]) = history g ls ++ (l.incident g).toList := by
  rw [history, List.filterMap_append]
  cases incident : l.incident g <;> simp [history, incident]

theorem Config.start_lively (host : ε) : (Config.start host).Lively [] where
  sound := Config.start_sound host
  orderly := Config.start_orderly host
  priv := ⟨nofun, nofun, nofun⟩
  stage := nofun
  unborn _ _ := rfl

theorem Step.lively {c d : Config ε} {ls : List Label} {l : Label} (lively : c.Lively ls) (step : Step c l d)
    (lawful : l.Lawful c) : d.Lively (ls ++ [l]) where
  sound := step.sound lively.sound
  orderly := step.orderly lively.sound lively.orderly
  priv := step.priv lively.sound lively.priv lawful
  stage g after := by
    rw [history_concat]
    by_cases late : c.world.generators.next ≤ g
    · rw [lively.unborn g late, Label.incident_unborn lively.sound step late]
      exact step.born lively.sound lawful late after
    · have before := (step.keeps_context lively.sound (Nat.not_le.mp late) after).1
      exact step.inStage lively.sound lively.orderly lively.priv lawful (lively.stage g before) before after
  unborn g late := by
    have early := (step.next_le lively.sound).trans late
    rw [history_concat, lively.unborn g early, Label.incident_unborn lively.sound step early]
    rfl

theorem Kept.lively {c : Config ε} {ls : List Label} {host : ε}
    (run : Kept lawful (Config.start host) ls c) : c.Lively ls := by
  induction run with
  | nil => exact Config.start_lively host
  | snoc _ step kept ih => exact step.lively ih kept

/-! ## The lifecycle -/

/-- What everybody can see of a context. It is at a yield if the last thing that happened to it was one. -/
structure Config.Lifecycle (c : Config ε) (ls : List Label) (g : GenId) : Prop where
  exclusive : [c.world.isRunnable g, c.world.isExecuting g, c.world.isCompleted g].count true = 1
  executing : c.world.isExecuting g = true ↔ ∃ t ∈ c.turns, t.context = g
  yieldPoint : c.world.yieldPoint g =
    if (history g ls).getLast? = some .yielded then some ((history g ls).count .yielded) else none
  started : c.world.isJustStarted g = true ↔
    (∀ throwing, .begun throwing ∉ history g ls) ∧ c.world.isCompleted g = false

/-- The states that may follow a state. -/
def GenState.successors : GenState → List GenState
  | .justStarted => [.running, .throwing, .completed]
  | .running => [.running, .throwing, .completed]
  | .throwing => [.running, .completed]
  | .completed => []

namespace Config.InStage

variable {c : Config ε} {g : GenId} {ls : List Label}

theorem lifecycle (stage : c.InStage g (history g ls)) : c.Lifecycle ls g where
  exclusive := by
    rw [stage.isRunnable, stage.isExecuting, stage.shows.isCompleted]
    cases stageOf (history g ls) <;> rfl
  executing := by
    rw [stage.isExecuting]
    exact stage.turn
  yieldPoint := by
    rw [stage.yieldPoint]
    simp only [stageOf_suspended]
    rfl
  started := by
    rw [stage.shows.isJustStarted, stage.shows.isCompleted, decide_eq_true_eq, decide_eq_false_iff_not]
    constructor
    · intro fresh
      rw [fresh, stageOf_fresh.mp fresh]
      exact ⟨fun _ => List.not_mem_nil, nofun⟩
    · rintro ⟨never, going⟩
      cases reached : stageOf (history g ls) with
      | fresh => rfl
      | stepping throwing => exact absurd (begun_of_stepping reached) (never throwing)
      | suspended =>
        obtain ⟨throwing, begun⟩ := stage.entered reached
        exact absurd begun (never throwing)
      | finished => exact absurd reached going

end Config.InStage

/-- The state of a context changes as its stage does: a body begins from rest and yields from a turn. -/
theorem Incident.state_successors {i : Incident} {p : Stage} (compiled compiled' : Bool)
    (begins : ∀ throwing, i = .begun throwing → p.isRunnable = true)
    (yields : i = .yielded → p.isExecuting = true)
    (moved : i.stage.state compiled' ≠ p.state compiled) :
    i.stage.state compiled' ∈ (p.state compiled).successors := by
  cases i with
  | begun throwing =>
    have rest := begins throwing rfl
    cases p with
    | fresh => cases throwing <;> cases compiled' <;> simp [Incident.stage, Stage.state, GenState.successors]
    | suspended => cases throwing <;> cases compiled' <;> simp [Incident.stage, Stage.state, GenState.successors]
    | _ => cases rest
  | yielded =>
    have turn := yields rfl
    cases p with
    | stepping throwing =>
      cases throwing <;> cases compiled <;> simp [Incident.stage, Stage.state, GenState.successors]
    | _ => cases turn
  | finished =>
    cases p with
    | stepping throwing =>
      cases throwing <;> cases compiled <;> simp [Incident.stage, Stage.state, GenState.successors]
    | finished => exact absurd rfl moved
    | _ => simp [Incident.stage, Stage.state, GenState.successors]

/-- Where nothing happens to a context, its state stays, up to what its backing tells. -/
theorem Stage.state_successors {p : Stage} (compiled compiled' : Bool) (moved : p.state compiled' ≠ p.state compiled) :
    p.state compiled' ∈ (p.state compiled).successors := by
  cases p with
  | stepping throwing =>
    revert moved
    cases throwing <;> cases compiled <;> cases compiled' <;> decide
  | _ => exact absurd rfl moved

/-- The lifecycle of every context in every state of a lawful program. Exactly one of the three conditions holds
of it; it counts as executing just while a turn of its body is under way; it stands at a yield just after one, and
at the number of yields so far; it counts as started once its body has been entered; and its state changes in the
given order only. -/
theorem lifecycle_invariant (host : ε) {ls : List Label} {c : Config ε}
    (run : Kept lawful (Config.start host) ls c) {g : GenId} (has : c.world.Has (.generator g)) :
    c.Lifecycle ls g ∧
    ∀ {l : Label} {d : Config ε}, Step c l d → l.Lawful c → d.world.Has (.generator g) →
      d.world.stateOf g ≠ c.world.stateOf g → d.world.stateOf g ∈ (c.world.stateOf g).successors := by
  have lively := run.lively
  have stage := lively.stage g has
  refine ⟨stage.lifecycle, fun {l d} step kept after moved => ?_⟩
  have next := step.inStage lively.sound lively.orderly lively.priv kept stage has after
  cases happened : l.incident g with
  | none =>
    rw [happened, Option.toList_none, List.append_nil] at next
    rw [next.shows.stateOf, stage.shows.stateOf] at moved ⊢
    exact Stage.state_successors _ _ moved
  | some i =>
    rw [happened, Option.toList_some] at next
    rw [next.shows.stateOf, stage.shows.stateOf, stageOf_concat] at moved ⊢
    obtain ⟨begins, yields⟩ := step.incident_stage lively.sound lively.orderly lively.priv stage happened
    exact Incident.state_successors _ _ begins yields moved

/-- The body of an interpreted context moves its instruction pointer, asks a compiled context to go on, twice, and
then asks its own context. The other context stands at its second yield then, and an exception is thrown into
it. -/
theorem lifecycle_invariant_nested :
    ∃ (ls : List Label) (c : Config Unit), Kept lawful (Config.start ()) ls c ∧
      c.Lifecycle ls 0 ∧ c.Lifecycle ls 1 ∧ c.world.isExecuting 0 = true ∧ c.world.yieldPoint 1 = some 2 ∧
      ∃ (l : Label) (d : Config Unit), Step c l d ∧ c.world.stateOf 1 = .running ∧
        d.world.stateOf 1 = .throwing ∧ d.world.stateOf 1 ∈ (c.world.stateOf 1).successors := by
  let throw : Play := .ask 1 (.throw ⟨.valueError, "no", none⟩) none
  let nested (ls : List Label) (c : Config Unit) : Bool :=
    decide (c.world.Has (.generator 0)) && decide (c.world.Has (.generator 1)) &&
      c.turns.any (fun t => t.context == 0) &&
      decide (history 1 ls = [.begun false, .yielded, .begun false, .yielded]) &&
      (c.play? throw).any fun s =>
        decide (lawful c s.1) && decide (s.2.world.Has (.generator 1)) &&
          decide (c.world.stateOf 1 = .running) && decide (s.2.world.stateOf 1 = .throwing)
  obtain ⟨ls, c, run, holds⟩ := Config.exists_kept (p := nested)
    [.call (.newRecord { code := { module := "m", name := "outer" } }),
      .call (.newInterpreted .coroutine 0 0),
      .call (.newCompiled .generator { module := "m", name := "inner" } none 1),
      .call (.clone (.object nothing)), .call (.clone (.object nothing)),
      .ask 0 (.send nothing) none, .call (.setIp 0 7), .ask 1 (.send nothing) none, .stop (.yields nothing),
      .ask 1 (.send nothing) none, .stop (.yields nothing), .call (.clone (.generator 0)),
      .ask 0 (.send nothing) none]
    (by decide +kernel : (Config.keepAll? lawful (Config.start ()) _).any _ = true)
  unfold nested at holds
  simp only [Bool.and_eq_true, Option.any_eq_true, decide_eq_true_eq, List.any_eq_true, beq_iff_eq] at holds
  obtain ⟨⟨⟨⟨outer, inner⟩, turn⟩, past⟩, ⟨l, d⟩, played, ⟨⟨kept, after⟩, running⟩, throwing⟩ := holds
  have step := Config.step_of_play? played
  obtain ⟨outside, -⟩ := lifecycle_invariant () run outer
  obtain ⟨inside, changes⟩ := lifecycle_invariant () run inner
  refine ⟨ls, c, run, outside, inside, outside.executing.mpr turn, ?_, l, d, step, running, throwing,
    changes step kept after ?_⟩
  · rw [inside.yieldPoint, past]
    rfl
  · rw [running, throwing]
    nofun

end Activation
