import Activation.Proofs.Lifecycle.Straying
import Activation.Proofs.Writes

/-! # Where the bodies are

A context gives its body away for a turn, and whoever shares its record sees it executing meanwhile. So a context
without its body is executing or has finished, as long as nobody writes the states of records.

* `unwritten`: a rule for programs that leave the states of the records of contexts alone. Records may be shared, bodies
  may stray and panic, and positions may be set to anything.
* `Config.Busy`: the contexts whose bodies are out are executing, each on a record of its own.
* `Kept.busy`: this is kept by such a program.
* `Kept.completed`: a context that counts as completed does so for good.
-/

namespace Activation
set_option autoImplicit false

variable {ε : Type}

def Op.Unwritten (c : Config ε) : Op → Prop
  | .clear r => c.world.Spare r
  | .setState r _ => c.world.Spare r
  | _ => True

/-- A rule for programs that leave the states of the records of contexts alone. -/
def unwritten (c : Config ε) : Label → Prop
  | .op call => call.Unwritten c
  | _ => True

instance Op.decidableUnwritten (c : Config ε) (call : Op) : Decidable (call.Unwritten c) := by
  induction call using Op.casesOn with
  | clear r => exact inferInstanceAs (Decidable (c.world.Spare r))
  | setState r s => exact inferInstanceAs (Decidable (c.world.Spare r))
  | _ => exact .isTrue trivial

instance unwritten.decidable (c : Config ε) (l : Label) : Decidable (unwritten c l) := by
  induction l using Label.casesOn with
  | op call => exact inferInstanceAs (Decidable (call.Unwritten c))
  | _ => exact .isTrue trivial

theorem Op.Unwritten.spare {c : Config ε} {call : Op} {r : RecordId} (rule : call.Unwritten c)
    (written : (call.writes c.world).states r) : c.world.Spare r := by
  cases call with
  | clear s =>
    cases (written : r = s)
    exact rule
  | setState s state =>
    cases (written : r = s)
    exact rule
  | _ => exact written.elim

/-! ## Reading off the record -/

namespace World

variable {w v : World ε} {g : GenId} {r : RecordId}

theorem isExecuting_of_live (live : (w.generator g).live = some r) :
    w.isExecuting g = (w.record r).state.isExecuting := by
  rw [isExecuting, backing_of_live live]
  rfl

theorem isCompleted_of_live (live : (w.generator g).live = some r) :
    w.isCompleted g = (w.record r).state.isCompleted := by
  rw [isCompleted, backing_of_live live]
  rfl

theorem live_congr (status : v.status g = w.status g) : (v.generator g).live = (w.generator g).live := by
  have same : (v.generator g).backing = (w.generator g).backing := congrArg Status.backing status
  unfold Generator.live
  rw [same]

theorem Done.live (done : w.Done g) : (w.generator g).live = none := by
  unfold Generator.live
  rcases done.cases with backing | backing <;> rw [backing]

/-- A context reads the same off the same record. -/
theorem readings_congr (status : v.status g = w.status g)
    (state : ∀ r, (w.generator g).live = some r → (v.record r).state = (w.record r).state) :
    v.isExecuting g = w.isExecuting g ∧ v.isCompleted g = w.isCompleted g := by
  have same : (v.generator g).backing = (w.generator g).backing := congrArg Status.backing status
  unfold isExecuting isCompleted
  rw [same]
  cases backing : (w.generator g).backing with
  | compiled s n => cases s <;> exact ⟨rfl, rfl⟩
  | interpreted record =>
    cases record with
    | none => exact ⟨rfl, rfl⟩
    | some r =>
      have kept := state r (by rw [Generator.live, backing])
      simp [kept]

theorem not_executing_of_completed (completed : w.isCompleted g = true) : w.isExecuting g = false := by
  unfold isCompleted at completed
  unfold isExecuting
  cases backing : (w.generator g).backing with
  | compiled s n =>
    rw [backing] at completed
    cases s with
    | completed => rfl
    | _ => cases completed
  | interpreted record =>
    rw [backing] at completed
    cases record with
    | none => rfl
    | some r =>
      simp only [Option.all_some, Option.any_some] at completed ⊢
      cases state : (w.record r).state <;> rw [state] at completed <;> first | rfl | cases completed

end World

theorem Steady.isCompleted_eq {w v : World ε} {g : GenId} {out rest : Multiset Handle} (steady : Steady {} w v)
    (acc : Accounted w out) (acc' : Accounted v rest) (status : v.status g = w.status g) :
    v.isCompleted g = w.isCompleted g := by
  refine (World.readings_congr status fun r live => ?_).2
  have after : (v.generator g).live = some r := (World.live_congr status).trans live
  obtain ⟨x, found⟩ := Option.isSome_iff_exists.mp (acc.has_record live)
  exact (steady.record_eq id (w.records.lt_next found) (acc'.has_record after)).1

theorem Step.readings_eq {c d : Config ε} {l : Label} {g : GenId} (sound : c.Sound) (step : Step c l d)
    (status : d.world.status g = c.world.status g)
    (aside : ∀ r, (c.world.generator g).live = some r → ¬ (l.writes c.world).states r) :
    d.world.isExecuting g = c.world.isExecuting g ∧ d.world.isCompleted g = c.world.isCompleted g := by
  refine World.readings_congr status fun r live => ?_
  have after : (d.world.generator g).live = some r := (World.live_congr status).trans live
  obtain ⟨x, found⟩ := Option.isSome_iff_exists.mp (sound.accounted.has_record live)
  have there := (step.sound sound).accounted.has_record after
  exact ((step.keeps sound).record (c.world.records.lt_next found) there).state.resolve_left (aside r live)

/-! ## Busy states -/

structure Config.Busy (c : Config ε) : Prop where
  /-- A context without its body is executing, or has finished. -/
  out : ∀ g, c.world.Has (.generator g) → (c.world.generator g).body = none →
    c.world.isExecuting g = true ∨ c.world.Done g
  turning : ∀ t ∈ c.turns, c.world.isExecuting t.context = true
  /-- Two contexts on one record are not both without their bodies. -/
  alone : ∀ g k r, (c.world.generator g).live = some r → (c.world.generator k).live = some r →
    (c.world.generator g).body = none → (c.world.generator k).body = none → g = k

namespace Config.Busy

variable {c : Config ε} {g k : GenId} {r : RecordId}

theorem executing (busy : c.Busy) (live : (c.world.generator g).live = some r)
    (body : (c.world.generator g).body = none) : c.world.isExecuting g = true := by
  rcases busy.out g (World.has_of_live live) body with executing | done
  · exact executing
  · rw [done.live] at live
    cases live

/-- A context at rest does not share its record with one whose body is out. -/
theorem apart (busy : c.Busy) (idle : c.world.isExecuting g = false) (live : (c.world.generator g).live = some r)
    (body : (c.world.generator k).body = none) : (c.world.generator k).live ≠ some r := by
  intro shared
  have executing := busy.executing shared body
  rw [World.isExecuting_of_live shared, ← World.isExecuting_of_live live, idle] at executing
  cases executing

end Config.Busy

/-- The context of a turn is executing up to its end. -/
theorem Step.ended_executing {c d : Config ε} {t : Turn} {ending : Ending} {result : Resumption} (sound : c.Sound)
    (busy : c.Busy) (step : Step c (.ended t ending result) d) : c.world.isExecuting t.context = true := by
  obtain ⟨turns, -⟩ := step.ended_status sound
  apply busy.turning
  rw [turns]
  exact List.mem_cons_self

theorem Reply.idle {w v : World ε} {g : GenId} {inj : Injection} {result : Resumption} (reply : Reply w g inj v result)
    (accepted : result.isRefusal = false) : w.isExecuting g = false := by
  cases reply with
  | refused judged => cases accepted
  | ignored judged =>
    cases judged with
    | ignored idle => exact idle
  | finished judged =>
    cases judged with
    | finished idle => exact idle
  | stuck judged =>
    cases judged with
    | entered idle => exact idle

namespace Step

variable {c d : Config ε} {l : Label} {g : GenId}

/-- Nobody else writes the state of a record whose context is without its body. -/
theorem aside (sound : c.Sound) (orderly : c.Orderly) (busy : c.Busy) (step : Step c l d) (rule : unwritten c l)
    (body : (c.world.generator g).body = none) (other : ¬ (l.footprint c.world).contexts g) {r : RecordId}
    (live : (c.world.generator g).live = some r) : ¬ (l.writes c.world).states r := by
  intro written
  cases l with
  | op call => exact Op.Unwritten.spare rule written g live
  | quiet => exact written
  | answered k inj external result =>
    cases result with
    | refused e => exact written
    | _ => exact busy.apart ((step.reply sound).idle rfl) written body live
  | entered t inj external =>
    obtain ⟨_, judged, -⟩ := step.entered_status sound
    cases judged with
    | entered idle => exact busy.apart idle written body live
  | ended t ending result =>
    obtain ⟨turns, -⟩ := step.ended_status sound
    have turn : t ∈ c.turns := by
      rw [turns]
      exact List.mem_cons_self
    exact other (busy.alone g t.context r live written body (orderly.away t turn).body)
  | strayed t ending result => exact written

/-- A context whose body is out goes on executing, whatever happens to others. -/
theorem bystander_executing (sound : c.Sound) (orderly : c.Orderly) (busy : c.Busy) (step : Step c l d)
    (rule : unwritten c l) (given : g < c.world.generators.next) (has : d.world.Has (.generator g))
    (body : (c.world.generator g).body = none) (other : ¬ (l.footprint c.world).contexts g) :
    d.world.isExecuting g = c.world.isExecuting g :=
  (step.readings_eq sound (step.status_eq sound other given has) fun _ =>
    step.aside sound orderly busy rule body other).1

end Step

/-! ## A body takes over -/

namespace World

variable {w : World ε} {g : GenId} {r : RecordId}

theorem has_modifyRecord {s : RecordId} (change : Record → Record) (has : w.Has (.record r)) :
    (w.modifyRecord s change).Has (.record r) := by
  simp only [Has, modifyRecord, Store.get?_modify]
  split
  · rw [Option.isSome_map]
    exact has
  · exact has

theorem state_begin (throwing : Bool) (backing : (w.generator g).backing = .interpreted (some r))
    (has : w.Has (.record r)) : ((w.begin g throwing).record r).state = .executing := by
  have there : (if w.lastInstr (w.generator g).frame < 0 then w.setIp (w.generator g).frame 0 else w).Has
      (.record r) := by
    split
    · simp only [setIp]
      split
      · exact has_modifyRecord _ has
      · exact has
    · exact has
  simp only [begin, backing]
  generalize (if w.lastInstr (w.generator g).frame < 0 then w.setIp (w.generator g).frame 0 else w) = v
    at there ⊢
  exact congrArg Record.state (record_modified there fun x => { x with state := .executing })

theorem state_prepared {inj : Injection} {external : Option RecordId} {out : Multiset Handle}
    (acc : Accounted w (↑(inj.offered external) + out)) (owned : .generator g ∈ out)
    (backing : (w.generator g).backing = .interpreted (some r)) :
    ((w.prepared g inj external).record r).state = .executing := by
  obtain ⟨acc', there, -⟩ := accounted_takeBody acc owned
  have backing' : ((w.takeBody g external).generator g).backing = .interpreted (some r) := by
    rw [← backing]
    exact congrArg Status.backing (status_takeBody external there)
  exact state_begin inj.isThrowing backing' (acc'.has_record (by rw [Generator.live, backing']))

end World

namespace Step

variable {c d : Config ε} {l : Label} {g : GenId}

theorem entered_executing {t : Turn} {inj : Injection} {external : Option RecordId} (sound : c.Sound)
    (step : Step c (.entered t inj external) d) : d.world.isExecuting t.context = true := by
  obtain ⟨_, judged, -, -, status⟩ := step.entered_status sound
  have after : (d.world.generator t.context).backing =
      (c.world.generator t.context).backing.begun inj.isThrowing := congrArg Status.backing status
  cases backing : (c.world.generator t.context).backing with
  | compiled state n =>
    rw [backing] at after
    exact World.isExecuting_of_away (status ▸ Status.begun_away _ _) after
  | interpreted record =>
    rw [backing] at after
    cases record with
    | none =>
      cases judged with
      | entered _ going =>
        rw [World.isCompleted, backing] at going
        cases going
    | some r =>
      obtain ⟨out, owned, acc⟩ := step.accounted_of_entered sound
      have live : (d.world.generator t.context).live = some r := by rw [Generator.live, after]; rfl
      have prepared := World.state_prepared acc owned backing
      have moves : Moves (.request t.context) c.world _ _ _ :=
        .prepare inj (.request c.world t.context external) acc owned
      have prepares := (moves.accounted acc).1
      have there := prepares.has (Multiset.mem_add.mpr (.inr owned))
      have before : ((c.world.prepared t.context inj external).generator t.context).live = some r := by
        have same : ((c.world.prepared t.context inj external).generator t.context).backing =
            (c.world.generator t.context).backing.begun inj.isThrowing :=
          congrArg Status.backing (World.status_prepare there)
        rw [Generator.live, same, backing]
        rfl
      obtain ⟨x, found⟩ := Option.isSome_iff_exists.mp (prepares.has_record before)
      have kept := (step.entered_keeps sound).record (Store.lt_next _ found)
        ((step.sound sound).accounted.has_record live)
      rw [World.isExecuting_of_live live, kept.state.resolve_left id, prepared]
      rfl

/-- A step leaves a context with its body, or executing, or finished. -/
theorem subject_out (sound : c.Sound) (busy : c.Busy) (step : Step c l d) (has : d.world.Has (.generator g))
    (subject : (l.footprint c.world).contexts g) (body : (d.world.generator g).body = none) :
    d.world.isExecuting g = true ∨ d.world.Done g := by
  cases l with
  | op call => exact (call.not_contexts _ _ subject).elim
  | answered k inj external result =>
    have own : g = k := subject
    subst own
    have acc' := (step.sound sound).accounted
    have kept : ∀ {v : World ε}, v.status g = c.world.status g → v = d.world → Steady {} c.world v →
        d.world.isExecuting g = true ∨ d.world.Done g := by
      rintro v status rfl steady
      have out : (c.world.generator g).body = none := (congrArg Status.body status).symm.trans body
      rcases busy.out g (step.has_asked sound).1 out with executing | done
      · exact .inl ((steady.isExecuting_eq sound.accounted acc' status fun _ => id).trans executing)
      · refine .inr ?_
        unfold World.Done
        rw [status]
        exact done
    cases step.reply sound with
    | refused _ steady status => exact kept status rfl steady
    | ignored _ steady status => exact kept status rfl steady
    | finished _ status => exact .inr (.of_closed status)
    | stuck _ _ status => exact .inr (.of_closed status)
  | entered t inj external =>
    have own : g = t.context := subject
    subst own
    exact .inl (step.entered_executing sound)
  | ended t ending result =>
    have own : g = t.context := subject
    subst own
    obtain ⟨-, -, -, status⟩ := step.ended_status sound
    cases ending with
    | panics p => exact .inr (.of_closed status)
    | _ =>
      have back : (d.world.generator t.context).body = some t.body := congrArg Status.body status
      rw [back] at body
      cases body
  | _ => exact subject.elim

/-- A context that has a record and no body was so before, or its turn has just begun. -/
theorem out_before (sound : c.Sound) (step : Step c l d) {r : RecordId} (live : (d.world.generator g).live = some r)
    (body : (d.world.generator g).body = none) :
    (c.world.generator g).live = some r ∧ ((c.world.generator g).body = none ∨
      (l.footprint c.world).contexts g ∧ c.world.isExecuting g = false) := by
  have has := World.has_of_live live
  have same : d.world.status g = c.world.status g →
      (c.world.generator g).live = some r ∧ (c.world.generator g).body = none := by
    intro status
    exact ⟨(World.live_congr status).symm.trans live, (congrArg Status.body status).symm.trans body⟩
  have closed : ∀ {s : Status}, d.world.status g = s.closed → False := by
    intro s status
    rw [(World.Done.of_closed status).live] at live
    cases live
  by_cases given : g < c.world.generators.next
  · by_cases subject : (l.footprint c.world).contexts g
    · cases l with
      | op call => exact (call.not_contexts _ _ subject).elim
      | answered k inj external result =>
        have own : g = k := subject
        subst own
        cases step.reply sound with
        | refused _ _ status => exact ⟨(same status).1, .inl (same status).2⟩
        | ignored _ _ status => exact ⟨(same status).1, .inl (same status).2⟩
        | finished _ status => exact (closed status).elim
        | stuck _ _ status => exact (closed status).elim
      | entered t inj external =>
        have own : g = t.context := subject
        subst own
        obtain ⟨_, judged, -, -, status⟩ := step.entered_status sound
        cases judged with
        | entered idle =>
          have backing : (d.world.generator t.context).backing =
              (c.world.generator t.context).backing.begun inj.isThrowing := congrArg Status.backing status
          refine ⟨?_, .inr ⟨rfl, idle⟩⟩
          rw [Generator.live, backing] at live
          rw [Generator.live]
          cases before : (c.world.generator t.context).backing with
          | compiled state n => rw [before] at live; cases live
          | interpreted record => rw [before] at live; exact live
      | ended t ending result =>
        have own : g = t.context := subject
        subst own
        obtain ⟨-, -, -, status⟩ := step.ended_status sound
        cases ending with
        | panics p => exact (closed status).elim
        | _ =>
          have back : (d.world.generator t.context).body = some t.body := congrArg Status.body status
          rw [back] at body
          cases body
      | _ => exact subject.elim
    · have status := step.status_eq sound subject given has
      exact ⟨(same status).1, .inl (same status).2⟩
  · rcases step.newborn sound (Nat.not_lt.mp given) has with ⟨_, _, _, _, -, born⟩ | ⟨_, _, _, -, born⟩
    all_goals
      rw [born] at body
      cases body

/-- A step is about one context at most. -/
theorem one_subject {k : GenId} (first : (l.footprint c.world).contexts g) (second : (l.footprint c.world).contexts k) :
    g = k := by
  cases l with
  | op call => exact (call.not_contexts _ _ first).elim
  | answered => exact Eq.trans first (Eq.symm second)
  | entered => exact Eq.trans first (Eq.symm second)
  | ended => exact Eq.trans first (Eq.symm second)
  | _ => exact first.elim

theorem turn_executing (sound : c.Sound) (orderly : c.Orderly) (busy : c.Busy) (step : Step c l d)
    (rule : unwritten c l) {t : Turn} (turn : t ∈ d.turns) : d.world.isExecuting t.context = true := by
  have has := (step.sound sound).has_turn turn
  rw [step.turns_eq] at turn
  -- a turn that was under way and is not the subject of the step goes on
  have onward : t ∈ c.turns → ¬ (l.footprint c.world).contexts t.context → d.world.isExecuting t.context = true :=
    fun before other => (step.bystander_executing sound orderly busy rule
      (World.lt_next_of_has (sound.has_turn before)) has (orderly.away t before).body other).trans
      (busy.turning t before)
  cases l with
  | op call => exact onward turn (call.not_contexts _ _)
  | quiet => exact onward turn id
  | answered k inj external result =>
    have before : t ∈ c.turns := turn
    by_cases own : t.context = k
    · subst own
      have executing := busy.turning t before
      have reply := step.reply sound
      cases result with
      | refused e =>
        cases reply with
        | refused _ steady status =>
          exact (steady.isExecuting_eq sound.accounted (step.sound sound).accounted status fun _ => id).trans executing
      | _ =>
        rw [reply.idle rfl] at executing
        cases executing
    · exact onward before own
  | entered u inj external =>
    by_cases own : t.context = u.context
    · rw [own]
      exact step.entered_executing sound
    · rcases List.mem_cons.mp turn with rfl | before
      · exact absurd rfl own
      · exact onward before own
  | ended u ending result =>
    obtain ⟨turns, -⟩ := step.ended_status sound
    have once := orderly.once
    rw [turns, List.map_cons, List.nodup_cons] at once
    have rest : t ∈ d.turns := by
      rw [step.turns_eq]
      exact turn
    refine onward (List.mem_of_mem_tail turn) fun own => once.1 ?_
    exact List.mem_map.mpr ⟨t, rest, own⟩
  | strayed u ending result =>
    exact onward (List.mem_of_mem_tail turn) id

theorem busy (sound : c.Sound) (orderly : c.Orderly) (busy : c.Busy) (step : Step c l d) (rule : unwritten c l) :
    d.Busy where
  out g has body := by
    by_cases given : g < c.world.generators.next
    · by_cases subject : (l.footprint c.world).contexts g
      · exact step.subject_out sound busy has subject body
      · have status := step.status_eq sound subject given has
        have out : (c.world.generator g).body = none := (congrArg Status.body status).symm.trans body
        rcases busy.out g (step.keeps_context sound given has).1 out with executing | done
        · exact .inl ((step.bystander_executing sound orderly busy rule given has out subject).trans executing)
        · refine .inr ?_
          unfold World.Done
          rw [status]
          exact done
    · rcases step.newborn sound (Nat.not_lt.mp given) has with ⟨_, _, _, _, -, born⟩ | ⟨_, _, _, -, born⟩
      all_goals
        rw [born] at body
        cases body
  turning t turn := step.turn_executing sound orderly busy rule turn
  alone g k r live live' body body' := by
    obtain ⟨before, out⟩ := step.out_before sound live body
    obtain ⟨before', out'⟩ := step.out_before sound live' body'
    rcases out with out | ⟨subject, idle⟩
    · rcases out' with out' | ⟨-, idle'⟩
      · exact busy.alone g k r before before' out out'
      · exact absurd before (busy.apart idle' before' out)
    · rcases out' with out' | ⟨subject', -⟩
      · exact absurd before' (busy.apart idle before out')
      · exact one_subject subject subject'

end Step

theorem Config.start_busy (host : ε) : (Config.start host).Busy where
  out _ has := by cases has
  turning _ turn := by cases turn
  alone _ _ _ live := by cases live

theorem Kept.busy {c d : Config ε} {ls : List Label} (sound : c.Sound) (orderly : c.Orderly) (busy : c.Busy)
    (kept : Kept unwritten c ls d) : d.Busy := by
  induction kept with
  | nil => exact busy
  | snoc init step rule ih => exact step.busy (init.run.sound sound) (init.run.orderly sound orderly) ih rule

/-! ## Completion -/

namespace Step

variable {c d : Config ε} {l : Label} {g : GenId}

/-- Nobody goes on along a record whose context counts as completed. -/
theorem completed_bystander (sound : c.Sound) (busy : c.Busy) (step : Step c l d) (rule : unwritten c l)
    (given : g < c.world.generators.next) (has : d.world.Has (.generator g))
    (other : ¬ (l.footprint c.world).contexts g) (completed : c.world.isCompleted g = true) :
    d.world.isCompleted g = true := by
  have status := step.status_eq sound other given has
  have still : (∀ r, (c.world.generator g).live = some r → ¬ (l.writes c.world).states r) →
      d.world.isCompleted g = true := fun aside => (step.readings_eq sound status aside).2.trans completed
  -- whoever shares the record counts as completed too
  have shared : ∀ {k : GenId} {r : RecordId}, (c.world.generator g).live = some r →
      (c.world.generator k).live = some r → c.world.isCompleted k = true := by
    intro k r live live'
    rw [World.isCompleted_of_live live', ← World.isCompleted_of_live live]
    exact completed
  cases l with
  | op call => exact still fun r live written => Op.Unwritten.spare rule written g live
  | quiet => exact still fun _ _ => id
  | answered k inj external result =>
    cases step.reply sound with
    | refused judged => exact still fun _ _ => id
    | ignored _ steady =>
      exact (steady.isCompleted_eq sound.accounted (step.sound sound).accounted status).trans completed
    | finished judged =>
      apply still
      intro r live written
      cases judged with
      | finished _ going =>
        rw [shared live written] at going
        cases going
    | stuck judged =>
      apply still
      intro r live written
      cases judged with
      | entered _ going =>
        rw [shared live written] at going
        cases going
  | entered t inj external =>
    apply still
    intro r live written
    obtain ⟨_, judged, -⟩ := step.entered_status sound
    cases judged with
    | entered _ going =>
      rw [shared live written] at going
      cases going
  | ended t ending result =>
    apply still
    intro r live written
    have executing := step.ended_executing sound busy
    rw [World.not_executing_of_completed (shared live written)] at executing
    cases executing
  | strayed t ending result => exact still fun _ _ => id

theorem completed (sound : c.Sound) (busy : c.Busy) (step : Step c l d) (rule : unwritten c l)
    (given : g < c.world.generators.next) (completed : c.world.isCompleted g = true) :
    d.world.isCompleted g = true := by
  by_cases has : d.world.Has (.generator g)
  · by_cases other : (l.footprint c.world).contexts g
    · cases l with
      | op call => exact (call.not_contexts _ _ other).elim
      | answered k inj external result =>
        have own : g = k := other
        subst own
        have acc := sound.accounted
        have acc' := (step.sound sound).accounted
        cases step.reply sound with
        | refused _ steady status => exact (steady.isCompleted_eq acc acc' status).trans completed
        | ignored _ steady status => exact (steady.isCompleted_eq acc acc' status).trans completed
        | finished _ status => exact (World.Done.of_closed status).isCompleted
        | stuck _ _ status => exact (World.Done.of_closed status).isCompleted
      | entered t inj external =>
        have own : g = t.context := other
        subst own
        obtain ⟨_, judged, -⟩ := step.entered_status sound
        cases judged with
        | entered _ going =>
          rw [completed] at going
          cases going
      | ended t ending result =>
        have own : g = t.context := other
        subst own
        have executing := step.ended_executing sound busy
        rw [World.not_executing_of_completed completed] at executing
        cases executing
      | _ => exact other.elim
    · exact step.completed_bystander sound busy rule given has other completed
  · exact (World.Done.of_absent has).isCompleted

end Step

/-- Completion is for good. -/
theorem Kept.completed {c d : Config ε} {ls : List Label} {g : GenId} (sound : c.Sound) (orderly : c.Orderly)
    (busy : c.Busy) (given : g < c.world.generators.next) (completed : c.world.isCompleted g = true)
    (kept : Kept unwritten c ls d) : d.world.isCompleted g = true := by
  suffices d.world.isCompleted g = true ∧ g < d.world.generators.next from this.1
  induction kept with
  | nil => exact ⟨completed, given⟩
  | snoc init step rule ih =>
    obtain ⟨here, given'⟩ := ih
    have sound' := init.run.sound sound
    exact ⟨step.completed sound' (init.busy sound orderly busy) rule given' here,
      given'.trans_le (step.next_le sound')⟩

end Activation
