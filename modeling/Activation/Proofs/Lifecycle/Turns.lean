import Activation.Proofs.Lifecycle.Status

/-! # Turns of bodies

What each step of a program does to the context that it is about. A context gives its body away for a turn, so
there is never more than one turn of it.

* `Reply w g inj v result`: a request without a turn may end in `result`, and leave the world `v` behind.
* `Injection.farewell`: the answer of a finished context.
* `Step.reply`, `Step.entered_status`, `Step.ended_status`: the three kinds of step that change a context.
* `Config.Orderly`: at most one turn for each context, which has no body meanwhile and counts as executing if
  it is compiled.
-/

namespace Activation
set_option autoImplicit false

variable {ε : Type}

/-! ## Requests without a turn -/

/-- The answer of a finished context. -/
def Injection.farewell (inj : Injection) (kind : GeneratorKind) : Resumption :=
  if inj.isClosing then .done (.returned nothing) else .refused (.exhausted kind)

/-- How a request without a turn may end, and what it makes of its context. -/
inductive Reply (w : World ε) (g : GenId) (inj : Injection) (v : World ε) : Resumption → Prop where
  | refused {e : GeneratorError} (judged : Judged w g inj (.refuse e)) (steady : Steady {} w v)
      (status : v.status g = w.status g) : Reply w g inj v (.refused e)
  | ignored (judged : Judged w g inj .ignore) (steady : Steady {} w v) (status : v.status g = w.status g) :
      Reply w g inj v (.done (.returned nothing))
  | finished (judged : Judged w g inj .finish) (status : v.status g = (w.status g).closed) :
      Reply w g inj v (.done (.returned nothing))
  /-- The frame of the context is on the stack already. -/
  | stuck {body : BodyId} {p : Panic} (judged : Judged w g inj (.enter body))
      (linked : (w.frame (w.generator g).frame).isLinked = true ∨
        w.stack.current = some (w.generator g).frame)
      (status : v.status g = ((w.status g).begun inj.isThrowing).closed) : Reply w g inj v (.panicked p)

namespace World

theorem enter_error {w : World ε} {f : FrameId} {p : Panic} (failed : w.enter f = .error p) :
    (w.frame f).isLinked = true ∨ w.stack.current = some f := by
  unfold enter push at failed
  split at failed
  · next linked => exact .inl linked
  · split at failed
    · next top => exact .inr top
    · cases failed

/-- A turn that does not begin finishes its context. -/
theorem status_startTurn {u v : World ε} {g : GenId} {body : BodyId} {inj : Injection} {result : Resumption}
    (answered : u.startTurn g body inj = .answered result v) (has : v.Has (.generator g)) :
    ((u.frame (u.generator g).frame).isLinked = true ∨ u.stack.current = some (u.generator g).frame) ∧
      v.status g = (u.status g).closed := by
  simp only [startTurn] at answered
  split at answered
  · next p failed =>
    cases answered
    have panicked : (u.panic p).status g = u.status g := status_congr (by rw [panic_eq]) g
    exact ⟨enter_error failed, by rw [status_drop has, status_abandon (has_of_drop has), panicked]⟩
  · cases answered

theorem reply {w v : World ε} {g : GenId} {inj : Injection} {external : Option RecordId} {out : Multiset Handle}
    {result : Resumption} (acc : Accounted w (↑(inj.offered external) + out)) (owned : .generator g ∈ out)
    (calm : w.fault = none) (answered : w.receive g inj external = .answered result v)
    (has : (settlePanic result v).2.Has (.generator g)) :
    Reply w g inj (settlePanic result v).2 (settlePanic result v).1 := by
  rw [has_settlePanic] at has
  have received := acc.received owned calm
  rw [answered] at received
  generalize admission : Admission.answered result v = a at received
  cases received with
  | @refused e judged hs all =>
    cases admission
    rw [← all] at acc
    rw [settlePanic_of_none (acc.fault_drop.trans calm)]
    exact .refused judged (steady_drop w hs) (status_drop has)
  | ignored judged =>
    cases admission
    rw [settlePanic_of_none (acc.fault_drop.trans calm)]
    exact .ignored judged (steady_drop w _) (status_drop has)
  | finished judged =>
    cases admission
    have completed : Moves .calm w (↑(inj.offered external) + out) (w.complete g .cleared)
        (↑(inj.offered external) + out) := .complete g .cleared trivial fun _ _ => trivial
    have calm' : (w.complete g .cleared).fault = none := (acc.fault_complete g .cleared).trans calm
    rw [settlePanic_of_none (((completed.accounted acc).1.fault_drop).trans calm')]
    exact .finished judged ((status_drop has).trans (status_complete .cleared (has_of_drop has)))
  | @entered body judged =>
    have small : Moves (.request g) w _ _ _ := .prepare inj (.request w g external) acc owned
    have acc' := (small.accounted acc).1
    have there : ((w.takeBody g external).begin g inj.isThrowing).Has (.generator g) :=
      acc'.has (Multiset.mem_add.mpr (.inr owned))
    have same := (small.steady.context id there).frame
    have frame := acc'.has_frame there
    obtain ⟨p, rfl, fault⟩ := acc'.fault_startTurn ((small.fault_eq acc id).trans calm) admission.symm
    obtain ⟨linked, status⟩ := status_startTurn admission.symm has
    rw [settlePanic_of_unwinding fault]
    rw [same] at linked frame
    rw [status_prepare there] at status
    refine .stuck judged (linked.imp (fun linked => ?_) fun top => ?_) ((status_congr rfl g).trans status)
    · rw [Frame.isLinked, ← small.steady.prev_eq id frame]
      exact linked
    · exact (small.steady.stack.resolve_left id).symm ▸ top

end World

/-! ## Steps -/

namespace Config

variable {c : Config ε}

theorem Sound.has_owned (sound : c.Sound) {h : Handle} (owned : h ∈ c.owned) : c.world.Has h :=
  sound.accounted.has (Multiset.mem_add.mpr (.inl owned))

theorem Sound.has_turn (sound : c.Sound) {t : Turn} (turn : t ∈ c.turns) : c.world.Has (.generator t.context) := by
  refine sound.accounted.has (Multiset.mem_add.mpr (.inr (Multiset.mem_add.mpr (.inr ?_))))
  exact Multiset.mem_coe.mpr (List.mem_flatMap.mpr ⟨t, turn, by simp [Turn.held]⟩)

end Config

namespace Step

variable {c d : Config ε} {l : Label}

theorem next_le (sound : c.Sound) (step : Step c l d) :
    c.world.generators.next ≤ d.world.generators.next :=
  (step.moves sound).1.steady.generators.next_le

theorem status_eq (sound : c.Sound) (step : Step c l d) {g : GenId}
    (other : ¬ (l.footprint c.world).contexts g) (given : g < c.world.generators.next)
    (has : d.world.Has (.generator g)) : d.world.status g = c.world.status g :=
  (step.moves sound).1.steady.status_eq other given has

/-- A context that is not new was there before, of the same kind and with the same frame. -/
theorem keeps_context (sound : c.Sound) (step : Step c l d) {g : GenId} (given : g < c.world.generators.next)
    (has : d.world.Has (.generator g)) :
    c.world.Has (.generator g) ∧ (d.world.generator g).kind = (c.world.generator g).kind ∧
      (d.world.generator g).frame = (c.world.generator g).frame := by
  obtain ⟨y, found⟩ := Option.isSome_iff_exists.mp has
  obtain ⟨x, there, keeps⟩ := (step.moves sound).1.steady.generators.old given found
  rw [World.generator_of_get? there, World.generator_of_get? found]
  exact ⟨Option.isSome_iff_exists.mpr ⟨x, there⟩, keeps.kind, keeps.frame⟩

variable {g : GenId} {t : Turn} {inj : Injection} {external : Option RecordId} {ending : Ending}
  {result : Resumption}

/-- Who asks a context to go on holds a handle on it. -/
theorem has_asked (sound : c.Sound) (step : Step c (.answered g inj external result) d) :
    c.world.Has (.generator g) ∧ d.world.Has (.generator g) := by
  have after := step.sound sound
  cases step with
  | answered takes received =>
    refine ⟨sound.has_owned ?_, after.has_owned (Multiset.mem_cons_self _ _)⟩
    rw [takes]
    exact Multiset.mem_cons_self _ _

theorem has_entered (sound : c.Sound) (step : Step c (.entered t inj external) d) :
    c.world.Has (.generator t.context) ∧ d.world.Has (.generator t.context) := by
  have after := step.sound sound
  cases step with
  | @entered g inj external t w rest takes received =>
    have held : .generator g ∈ c.owned := by
      rw [takes]
      exact Multiset.mem_cons_self _ _
    have acc := sound.accounted
    rw [c.outside_of_request takes] at acc
    obtain ⟨body, -, turn, -⟩ := World.receive_entered acc (Multiset.mem_cons_self _ _) sound.calm received
    have context : t.context = g := by rw [turn]
    exact ⟨context ▸ sound.has_owned held, after.has_turn (List.mem_cons_self ..)⟩

theorem reply (sound : c.Sound) (step : Step c (.answered g inj external result) d) :
    Reply c.world g inj d.world result := by
  have has := (step.has_asked sound).2
  cases step with
  | answered takes received =>
    have acc := sound.accounted
    rw [c.outside_of_request takes] at acc
    exact World.reply acc (Multiset.mem_cons_self _ _) sound.calm received has

/-- A turn that begins: the request is in order, and the body is out of the context. -/
theorem entered_status (sound : c.Sound) (step : Step c (.entered t inj external) d) :
    ∃ body, Judged c.world t.context inj (.enter body) ∧
      t = ⟨t.context, (c.world.generator t.context).frame, body, inj.isClosing⟩ ∧ d.turns = t :: c.turns ∧
      d.world.status t.context = (c.world.status t.context).begun inj.isThrowing := by
  have after := step.sound sound
  cases step with
  | @entered g inj external t w rest takes received =>
    have acc := sound.accounted
    rw [c.outside_of_request takes] at acc
    obtain ⟨body, judged, turn, pushed⟩ :=
      World.receive_entered acc (Multiset.mem_cons_self _ _) sound.calm received
    have context : t.context = g := by rw [turn]
    subst context
    refine ⟨body, judged, turn, rfl, ?_⟩
    have there : w.Has (.generator t.context) := after.has_turn (List.mem_cons_self ..)
    have same := (World.enter_ok pushed).1
    rw [World.status_congr same]
    refine World.status_prepare ?_
    simpa only [World.Has, same] using there

theorem ended_status (sound : c.Sound) (step : Step c (.ended t ending result) d) :
    c.turns = t :: d.turns ∧ c.world.stack.current = some t.frame ∧ result = (c.world.finish t ending).1 ∧
      d.world.status t.context = (c.world.status t.context).after t.body ending := by
  have after := step.sound sound
  cases step with
  | ended innermost balanced takes =>
    have acc := sound.accounted
    rw [c.outside_of_turn innermost takes] at acc
    refine ⟨innermost, balanced, rfl, ?_⟩
    exact World.status_finish acc sound.calm balanced (after.has_owned (Multiset.mem_cons_self _ _))

theorem has_ended (sound : c.Sound) (step : Step c (.ended t ending result) d) :
    c.world.Has (.generator t.context) ∧ d.world.Has (.generator t.context) := by
  have after := step.sound sound
  cases step with
  | ended innermost balanced takes =>
    refine ⟨sound.has_turn ?_, after.has_owned (Multiset.mem_cons_self _ _)⟩
    rw [innermost]
    exact List.mem_cons_self ..

theorem strayed_turns (step : Step c (.strayed t ending result) d) : c.turns = t :: d.turns := by
  cases step with
  | strayed innermost unbalanced calm takes => exact innermost

end Step

/-! ## One turn at a time -/

/-- The body of the context is running. If the context is compiled, it counts as executing; the record of an
interpreted one is open to anybody, and may say anything. -/
structure Status.Away (s : Status) : Prop where
  body : s.body = none
  busy : ∀ state n, s.backing = .compiled state n → state = .throwing ∨ state = .running ∧ n = 0

structure Config.Orderly (c : Config ε) : Prop where
  once : (c.turns.map Turn.context).Nodup
  away : ∀ t ∈ c.turns, (c.world.status t.context).Away

theorem Config.Orderly.keep {c d : Config ε} (orderly : c.Orderly) (same : d.turns = c.turns)
    (away : ∀ t ∈ c.turns, (d.world.status t.context).Away) : d.Orderly := by
  refine ⟨?_, ?_⟩
  · rw [same]
    exact orderly.once
  · rw [same]
    exact away

namespace World

variable {w : World ε} {g : GenId}

/-- A compiled context whose body is running refuses every request. -/
theorem isExecuting_of_away (away : (w.status g).Away) {state : GenState} {n : Nat}
    (compiled : (w.status g).backing = .compiled state n) : w.isExecuting g = true := by
  have backing : (w.generator g).backing = .compiled state n := compiled
  rcases away.busy state n compiled with rfl | ⟨rfl, rfl⟩ <;> simp [isExecuting, backing]

end World

theorem Reply.away {w v : World ε} {g : GenId} {inj : Injection} {result : Resumption}
    (reply : Reply w g inj v result) (away : (w.status g).Away) : (v.status g).Away := by
  cases reply with
  | refused _ _ status => exact status ▸ away
  | ignored _ _ status => exact status ▸ away
  | finished judged status =>
    cases judged with
    | finished idle =>
      rw [status]
      refine ⟨away.body, fun state n closed => ?_⟩
      cases backing : (w.status g).backing with
      | compiled before m =>
        rw [World.isExecuting_of_away away backing] at idle
        cases idle
      | interpreted live =>
        rw [Status.closed, backing] at closed
        cases closed
  | stuck judged =>
    cases judged with
    | entered _ _ _ ready =>
      have none : (w.generator g).body = none := away.body
      rw [ready] at none
      cases none

theorem Status.begun_away (s : Status) (throwing : Bool) : (s.begun throwing).Away := by
  refine ⟨rfl, fun state n after => ?_⟩
  simp only [Status.begun] at after
  cases backing : s.backing with
  | compiled before m =>
    rw [backing] at after
    cases throwing with
    | true => cases after; exact .inl rfl
    | false => cases after; exact .inr ⟨rfl, rfl⟩
  | interpreted live =>
    rw [backing] at after
    cases after

theorem Op.not_contexts (w : World ε) (op : Op) (g : GenId) : ¬ (op.footprint w).contexts g := by
  cases op <;> exact id

namespace Step

variable {c d : Config ε} {l : Label}

theorem away (sound : c.Sound) (orderly : c.Orderly) (step : Step c l d) {t : Turn} (before : t ∈ c.turns)
    (after : t ∈ d.turns) (other : ¬ (l.footprint c.world).contexts t.context) :
    (d.world.status t.context).Away := by
  rw [step.status_eq sound other (World.lt_next_of_has (sound.has_turn before))
    ((step.sound sound).has_turn after)]
  exact orderly.away t before

theorem orderly (sound : c.Sound) (orderly : c.Orderly) (step : Step c l d) : d.Orderly := by
  have away := fun {t : Turn} => step.away (t := t) sound orderly
  cases l with
  | op call =>
    have same : d.turns = c.turns := step.turns_eq
    exact orderly.keep same fun t turn => away turn (same ▸ turn) (call.not_contexts _ _)
  | quiet =>
    have same : d.turns = c.turns := step.turns_eq
    exact orderly.keep same fun t turn => away turn (same ▸ turn) id
  | answered g inj external result =>
    have same : d.turns = c.turns := step.turns_eq
    refine orderly.keep same fun t turn => ?_
    by_cases own : t.context = g
    · subst own
      exact (step.reply sound).away (orderly.away t turn)
    · exact away turn (same ▸ turn) own
  | entered t inj external =>
    obtain ⟨body, judged, -, turns, status⟩ := step.entered_status sound
    -- a context whose body is out cannot be entered again
    have fresh : ∀ u ∈ c.turns, u.context ≠ t.context := fun u member own => by
      have none : (c.world.generator t.context).body = none := own ▸ (orderly.away u member).body
      cases judged with
      | entered _ _ _ ready =>
        rw [ready] at none
        cases none
    rw [turns] at away
    refine ⟨?_, fun u member => ?_⟩
    · rw [turns, List.map_cons, List.nodup_cons]
      refine ⟨fun mem => ?_, orderly.once⟩
      obtain ⟨u, member, own⟩ := List.mem_map.mp mem
      exact fresh u member own
    · rw [turns] at member
      rcases List.mem_cons.mp member with rfl | old
      · rw [status]
        exact Status.begun_away _ _
      · exact away old member (fresh u old)
  | ended t ending result =>
    obtain ⟨turns, -, -, -⟩ := step.ended_status sound
    have once := orderly.once
    rw [turns, List.map_cons, List.nodup_cons] at once
    rw [turns] at away
    refine ⟨once.2, fun u member => away (List.mem_cons_of_mem t member) member fun own => once.1 ?_⟩
    exact List.mem_map.mpr ⟨u, member, own⟩
  | strayed t ending result =>
    have turns := step.strayed_turns
    have once := orderly.once
    rw [turns, List.map_cons, List.nodup_cons] at once
    rw [turns] at away
    exact ⟨once.2, fun u member => away (List.mem_cons_of_mem t member) member id⟩

end Step

theorem Config.start_orderly (host : ε) : (Config.start host).Orderly where
  once := List.nodup_nil
  away := nofun

theorem Run.orderly {c d : Config ε} {ls : List Label} (sound : c.Sound) (orderly : c.Orderly)
    (run : Run c ls d) : d.Orderly := by
  induction run with
  | nil => exact orderly
  | snoc init step ih => exact step.orderly (init.sound sound) ih

end Activation
