import Activation.Proofs.Handles.Calls

/-! # The status of a context

What a resumption does to its own context, and that it does nothing to any other.

* `Status`: all of a context but who awaits it and who owns it.
* `Status.begun`, `Status.after`, `Status.closed`: how it changes when the body takes over, when the body stops,
  and when the context finishes.
* `Steady.status_eq`: a context outside the footprint keeps its status.
* `World.status_prepare`, `World.status_finish`: what the two halves of a request do to their context.
* `World.record_begin`, `World.record_suspend`: what becomes of the record of an interpreted context.
-/

namespace Activation
set_option autoImplicit false

variable {ε : Type}

structure Status where
  kind : GeneratorKind
  frame : FrameId
  backing : Backing
  body : Option BodyId
  yields : Nat

def Generator.status (x : Generator) : Status := ⟨x.kind, x.frame, x.backing, x.body, x.yields⟩

def World.status (w : World ε) (g : GenId) : Status := (w.generator g).status

namespace Backing

/-- The body takes over. -/
def begun (throwing : Bool) : Backing → Backing
  | .compiled _ _ => .compiled (if throwing then .throwing else .running) 0
  | .interpreted live => .interpreted live

/-- The body has yielded for the `n`-th time. -/
def paused (n : Nat) : Backing → Backing
  | .compiled _ _ => .compiled .running n
  | .interpreted live => .interpreted live

/-- The body has finished. -/
def closed : Backing → Backing
  | .compiled _ _ => .compiled .completed 0
  | .interpreted _ => .interpreted none

theorem closed_begun (b : Backing) (throwing : Bool) : (b.begun throwing).closed = b.closed := by cases b <;> rfl

theorem closed_closed (b : Backing) : b.closed.closed = b.closed := by cases b <;> rfl

end Backing

namespace Status

def begun (s : Status) (throwing : Bool) : Status :=
  { s with backing := s.backing.begun throwing, body := none }

def closed (s : Status) : Status := { s with backing := s.backing.closed }

/-- The status after a turn of the body. A body that panics is not put back. -/
def after (s : Status) (body : BodyId) : Ending → Status
  | .yields _ =>
    { s with backing := s.backing.paused (s.yields + 1), body := some body, yields := s.yields + 1 }
  | .returns _ => { s with backing := s.backing.closed, body := some body }
  | .raises _ => { s with backing := s.backing.closed, body := some body }
  | .panics _ => s.closed

theorem backing_after (s : Status) (body : BodyId) {ending : Ending} (stops : ending.isYield = false) :
    (s.after body ending).backing = s.backing.closed := by
  cases ending with
  | yields o => cases stops
  | _ => rfl

end Status

/-! ## Other contexts -/

theorem Steady.has_generator {F : Footprint} {w v : World ε} (steady : Steady F w v) (unborn : ¬ F.births)
    {g : GenId} (has : v.Has (.generator g)) : w.Has (.generator g) := by
  obtain ⟨y, found⟩ := Option.isSome_iff_exists.mp has
  rcases steady.generators.origin g y found with ⟨x, there, -⟩ | ⟨-, born⟩
  · exact Option.isSome_iff_exists.mpr ⟨x, there⟩
  · exact absurd born unborn

theorem Steady.status_eq {F : Footprint} {w v : World ε} (steady : Steady F w v) {g : GenId}
    (other : ¬ F.contexts g) (given : g < w.generators.next) (has : v.Has (.generator g)) :
    v.status g = w.status g := by
  obtain ⟨y, found⟩ := Option.isSome_iff_exists.mp has
  obtain ⟨x, there, keeps⟩ := steady.generators.old given found
  obtain ⟨backing, body, yields⟩ := keeps.still.resolve_left other
  rw [World.status, World.status, World.generator_of_get? there, World.generator_of_get? found]
  simp only [Generator.status, keeps.kind, keeps.frame, backing, body, yields]

namespace World

theorem status_of_get? {w : World ε} {g : GenId} {x : Generator} (found : w.generators.get? g = some x) :
    w.status g = x.status := by rw [status, generator_of_get? found]

theorem status_congr {w v : World ε} (same : v.generators = w.generators) (g : GenId) :
    v.status g = w.status g := by simp only [status, generator, same]

theorem lt_next_of_has {w : World ε} {g : GenId} (has : w.Has (.generator g)) : g < w.generators.next := by
  obtain ⟨x, found⟩ := Option.isSome_iff_exists.mp has
  exact w.generators.lt_next found

theorem status_modifyGenerator {w : World ε} {g : GenId} (f : Generator → Generator)
    (has : w.Has (.generator g)) : (w.modifyGenerator g f).status g = (f (w.generator g)).status := by
  obtain ⟨x, found⟩ := Option.isSome_iff_exists.mp has
  rw [generator_of_get? found]
  refine status_of_get? ?_
  simp [modifyGenerator, Store.get?_modify, found]

theorem has_modifyGenerator {w : World ε} {g k : GenId} (f : Generator → Generator) :
    (w.modifyGenerator g f).Has (.generator k) ↔ w.Has (.generator k) := by
  simp only [Has, modifyGenerator, Store.get?_modify]
  split
  · simp
  · exact Iff.rfl

/-! ## Changes of state -/

theorem status_begin {w : World ε} {g : GenId} (throwing : Bool) (has : w.Has (.generator g)) :
    (w.begin g throwing).status g =
      { w.status g with backing := (w.status g).backing.begun throwing } := by
  have same : (if w.lastInstr (w.generator g).frame < 0 then w.setIp (w.generator g).frame 0
      else w).generators = w.generators := by
    split <;> simp
  simp only [begin]
  generalize (if w.lastInstr (w.generator g).frame < 0 then w.setIp (w.generator g).frame 0 else w) = v
    at same ⊢
  have has' : v.Has (.generator g) := by simpa only [Has, same] using has
  have eq : v.generator g = w.generator g := by simp only [generator, same]
  cases backing : (w.generator g).backing with
  | compiled s n =>
    refine (status_modifyGenerator _ has').trans ?_
    simp only [eq, status, Generator.status, backing, Backing.begun]
  | interpreted live =>
    have still : v.status g = w.status g := status_congr same g
    have begun : (w.status g).backing.begun throwing = (w.status g).backing := by
      simp only [status, Generator.status, backing, Backing.begun]
    rw [begun]
    cases live <;> exact still

theorem status_suspend {w : World ε} {g : GenId} (has : w.Has (.generator g)) :
    (w.suspend g).status g =
      { w.status g with
        backing := (w.status g).backing.paused ((w.status g).yields + 1)
        yields := (w.status g).yields + 1 } := by
  have counted : (w.modifyGenerator g fun x => { x with yields := (w.generator g).yields + 1 }).status g =
      { w.status g with yields := (w.status g).yields + 1 } := status_modifyGenerator _ has
  simp only [suspend]
  cases backing : (w.generator g).backing with
  | compiled s n =>
    refine (status_modifyGenerator _ ((has_modifyGenerator _).mpr has)).trans ?_
    have eq := counted
    simp only [status, Generator.status, Status.mk.injEq] at eq ⊢
    simp only [eq, backing, Backing.paused, and_self]
  | interpreted live =>
    have paused : ∀ n, (w.status g).backing.paused n = (w.status g).backing := fun n => by
      simp only [status, Generator.status, backing, Backing.paused]
    rw [paused]
    cases live <;> exact counted

/-- Apart from the state of the context, only a record changes. -/
theorem steady_vacate (w : World ε) (g : GenId) (final : RecordState) :
    Steady { records := fun _ => True } (w.modifyGenerator g fun x => { x with backing := x.backing.closed })
      (w.vacate g final) := by
  have congr : ∀ b, (w.generator g).backing.closed = b →
      (w.modifyGenerator g fun x => { x with backing := x.backing.closed }) =
        w.modifyGenerator g fun x => { x with backing := b } := by
    intro b backing
    simp only [modifyGenerator]
    rw [Store.modify_congr]
    intro x found
    rw [generator_of_get? found] at backing
    rw [backing]
  unfold vacate
  cases backing : (w.generator g).backing with
  | compiled s n =>
    rw [congr (.compiled .completed 0) (by rw [backing]; rfl)]
    exact .refl _
  | interpreted live =>
    cases live with
    | none =>
      have same : (w.modifyGenerator g fun x => { x with backing := x.backing.closed }) = w := by
        simp only [modifyGenerator]
        rw [Store.modify_eq_self]
        intro x found
        rw [generator_of_get? found] at backing
        rw [backing, Backing.closed, ← backing]
      rw [same]
      exact .refl w
    | some r =>
      rw [congr (.interpreted none) (by rw [backing]; rfl)]
      simp only [retire]
      refine (Moves.clear r trivial : Moves _ _ 0 _ 0).steady.trans (Steady.trans ?_
        (Moves.dropOne _ (.record r) : Moves _ _ _ _ 0).steady)
      split
      · exact .refl _
      · exact (Moves.setState r final trivial : Moves _ _ 0 _ 0).steady

theorem steady_complete (w : World ε) (g : GenId) (final : RecordState) :
    Steady { records := fun _ => True } (w.modifyGenerator g fun x => { x with backing := x.backing.closed })
      (w.complete g final) := by
  simp only [complete]
  refine (steady_vacate w g final).trans ?_
  split
  · exact .refl _
  · split
    · exact ((Moves.linkAwaiter g none).trans (.emit _) : Moves _ _ 0 _ 0).steady
    · exact (Moves.emit _ : Moves _ _ 0 _ 0).steady

theorem status_complete {w : World ε} {g : GenId} (final : RecordState)
    (has : (w.complete g final).Has (.generator g)) :
    (w.complete g final).status g = (w.status g).closed := by
  have steady := steady_complete w g final
  have after := steady.has_generator id has
  have before := (has_modifyGenerator _).mp after
  rw [steady.status_eq id (lt_next_of_has after) has,
    status_modifyGenerator _ before]
  rfl

theorem generators_catchPanic (w : World ε) : w.catchPanic.2.generators = w.generators := by
  rw [catchPanic_eq]

theorem settlePanic_snd (w : World ε) (result : Resumption) :
    (settlePanic result w).2 = w.catchPanic.2 := by
  unfold settlePanic
  split <;> simp_all

theorem generators_settlePanic (w : World ε) (result : Resumption) :
    (settlePanic result w).2.generators = w.generators := by
  rw [settlePanic_snd, generators_catchPanic]

theorem generators_cleanUp (w : World ε) (f : World ε → World ε) :
    (w.cleanUp f).generators = (f w.catchPanic.2).generators := by
  unfold cleanUp
  split
  · next caught => rw [caught]
  · next p v caught =>
    rw [caught, ← generators_catchPanic (f v)]
    split <;> simp_all

theorem status_abandon {w : World ε} {g : GenId} (has : (w.abandon g).Has (.generator g)) :
    (w.abandon g).status g = (w.status g).closed := by
  unfold abandon at has ⊢
  generalize told : w.emit _ = v at has ⊢
  have same : v.catchPanic.2.generators = w.generators := by
    rw [generators_catchPanic, ← told]
    rfl
  have there : (v.catchPanic.2.complete g .raised).Has (.generator g) := by
    simpa only [Has, generators_cleanUp] using has
  rw [status_congr (generators_cleanUp v _), status_complete .raised there, status_congr same]

theorem steady_drop (w : World ε) (hs : List Handle) : Steady {} w (w.drop hs) :=
  (Moves.drop w hs : Moves _ _ _ _ 0).steady

theorem has_of_drop {w : World ε} {hs : List Handle} {g : GenId} (has : (w.drop hs).Has (.generator g)) :
    w.Has (.generator g) := (steady_drop w hs).has_generator id has

theorem status_drop {w : World ε} {hs : List Handle} {g : GenId} (has : (w.drop hs).Has (.generator g)) :
    (w.drop hs).status g = w.status g :=
  (steady_drop w hs).status_eq id (lt_next_of_has (has_of_drop has)) has

/-! ## Requests -/

theorem steady_takeBody (w : World ε) (g : GenId) (external : Option RecordId) :
    Steady { attached := fun _ => True } (w.modifyGenerator g fun x => { x with body := none })
      (w.takeBody g external) := by
  simp only [takeBody]
  cases external with
  | none => exact .refl _
  | some r =>
    simp only [bindRecord]
    split
    · exact (Moves.dropOne _ (.record r) : Moves _ _ _ _ 0).steady
    · next compact =>
      refine .modifyFrame _ _ fun x found => ⟨.inr ⟨?_, fun _ _ => trivial⟩, .inr rfl⟩
      simpa [frame, found, Frame.isMaterialized] using compact

theorem enter_ok {w v : World ε} {f : FrameId} (entered : w.enter f = .ok v) :
    v.generators = w.generators ∧ v.records = w.records := by
  unfold enter push at entered
  split at entered
  · cases entered
  · split at entered
    · cases entered
    · cases entered
      exact ⟨rfl, rfl⟩

theorem status_takeBody {w : World ε} {g : GenId} (external : Option RecordId)
    (has : (w.takeBody g external).Has (.generator g)) :
    (w.takeBody g external).status g = { w.status g with body := none } := by
  have steady := steady_takeBody w g external
  have after := steady.has_generator id has
  rw [steady.status_eq id (lt_next_of_has after) has, status_modifyGenerator _ ((has_modifyGenerator _).mp after)]
  rfl

theorem has_of_begin {w : World ε} {g : GenId} {throwing : Bool} (has : (w.begin g throwing).Has (.generator g)) :
    w.Has (.generator g) :=
  (Moves.begin g throwing trivial (fun _ _ => trivial) fun _ _ => trivial :
    Moves { Footprint.calm with births := False } w 0 _ 0).steady.has_generator id has

/-- The context of a turn, right before its frame goes on the stack. -/
theorem status_prepare {w : World ε} {g : GenId} {external : Option RecordId} {throwing : Bool}
    (has : ((w.takeBody g external).begin g throwing).Has (.generator g)) :
    ((w.takeBody g external).begin g throwing).status g = (w.status g).begun throwing := by
  rw [status_begin throwing (has_of_begin has), status_takeBody external (has_of_begin has)]
  rfl

end World

/-! ## The end of a turn -/

namespace World

theorem has_of_suspend {w : World ε} {g : GenId} (has : (w.suspend g).Has (.generator g)) :
    w.Has (.generator g) :=
  (Moves.suspend g trivial fun _ _ => trivial : Moves { Footprint.calm with births := False } w 0 _ 0).steady
    |>.has_generator id has

theorem has_of_complete {w : World ε} {g : GenId} {final : RecordState}
    (has : (w.complete g final).Has (.generator g)) : w.Has (.generator g) :=
  (has_modifyGenerator _).mp ((steady_complete w g final).has_generator id has)

/-- The change of state of a context whose body stops without a panic. -/
def stopped (w : World ε) (g : GenId) : Ending → World ε
  | .yields _ => w.suspend g
  | .returns _ => w.complete g .returned
  | .raises _ => w.complete g .raised
  | .panics _ => w

/-- Apart from the change of state, handles may be given back. -/
theorem settle_snd (w : World ε) (g : GenId) (closing : Bool) {ending : Ending}
    (sane : ending.isPanic = false) :
    ∃ hs, (w.settle g closing ending).2 = (w.stopped g ending).drop hs := by
  have none : ∀ v : World ε, v = v.drop [] := fun v => by simp [drop]
  cases ending with
  | yields o =>
    simp only [settle]
    split
    · exact ⟨[.object o], rfl⟩
    · exact ⟨[], none _⟩
  | returns o =>
    simp only [settle]
    split
    · exact ⟨[.object o], rfl⟩
    · exact ⟨[], none _⟩
  | raises e =>
    simp only [settle]
    split
    · exact ⟨e.held, rfl⟩
    · split
      · exact ⟨e.held, rfl⟩
      · exact ⟨[], none _⟩
  | panics p => cases sane

theorem has_of_stopped {w : World ε} {g : GenId} {ending : Ending}
    (has : (w.stopped g ending).Has (.generator g)) : w.Has (.generator g) := by
  cases ending with
  | yields o => exact has_of_suspend has
  | returns o => exact has_of_complete has
  | raises e => exact has_of_complete has
  | panics p => exact has

theorem status_stopped {w : World ε} {g : GenId} {ending : Ending} {body : BodyId}
    (sane : ending.isPanic = false) (ready : (w.status g).body = some body)
    (has : (w.stopped g ending).Has (.generator g)) :
    (w.stopped g ending).status g = (w.status g).after body ending := by
  cases ending with
  | yields o =>
    simp only [stopped] at has ⊢
    rw [status_suspend (has_of_suspend has)]
    simp only [Status.after, ready]
  | returns o =>
    simp only [stopped] at has ⊢
    rw [status_complete .returned has]
    simp only [Status.after, Status.closed, ready]
  | raises e =>
    simp only [stopped] at has ⊢
    rw [status_complete .raised has]
    simp only [Status.after, Status.closed, ready]
  | panics p => cases sane

theorem steady_leave (w : World ε) (f : FrameId) :
    Steady { links := fun _ => True, stack := True, faults := True } w (w.leave f) :=
  (Moves.leave f (fun _ _ => trivial) trivial (.inl trivial) : Moves _ _ _ _ 0).steady

theorem status_leave {w : World ε} {f : FrameId} {g : GenId} (has : (w.leave f).Has (.generator g)) :
    (w.leave f).status g = w.status g :=
  (steady_leave w f).status_eq id (lt_next_of_has ((steady_leave w f).has_generator id has)) has

theorem has_settlePanic {w : World ε} {result : Resumption} {g : GenId} :
    (settlePanic result w).2.Has (.generator g) ↔ w.Has (.generator g) := by
  simp only [Has, generators_settlePanic]

theorem has_restored {w : World ε} {t : Turn} {ending : Ending} {hs : List Handle}
    (has : (((w.restored t).stopped t.context ending).drop hs).Has (.generator t.context)) :
    ((w.restored t).stopped t.context ending).Has (.generator t.context) ∧
      (w.restored t).Has (.generator t.context) ∧ (w.leave t.frame).Has (.generator t.context) :=
  ⟨has_of_drop has, has_of_stopped (has_of_drop has),
    (has_modifyGenerator _).mp (has_of_stopped (has_of_drop has))⟩

theorem status_restored {w : World ε} {t : Turn} (has : (w.leave t.frame).Has (.generator t.context)) :
    (w.restored t).status t.context = { w.status t.context with body := some t.body } := by
  rw [restored, status_modifyGenerator _ has, ← status_leave has]
  rfl

/-- What the end of a turn does to its context, with the frame on top of the stack. -/
theorem status_finish {w : World ε} {t : Turn} {ending : Ending} {out : Multiset Handle}
    (acc : Accounted w (.frame t.frame ::ₘ out)) (calm : w.fault = none)
    (balanced : w.stack.current = some t.frame)
    (has : (w.finish t ending).2.Has (.generator t.context)) :
    (w.finish t ending).2.status t.context = (w.status t.context).after t.body ending := by
  cases sane : ending.isPanic with
  | true =>
    cases ending with
    | panics p =>
      unfold finish at has ⊢
      rw [has_settlePanic] at has
      rw [status_congr (generators_settlePanic _ _)]
      have same : (w.panic p).status t.context = w.status t.context :=
        status_congr (by rw [panic_eq]) t.context
      have there : ((w.panic p).leave t.frame).Has (.generator t.context) := by
        have moves : Moves { Footprint.calm with births := False, faults := True }
            ((w.panic p).leave t.frame) 0 (((w.panic p).leave t.frame).abandon t.context) 0 :=
          .abandon t.context trivial trivial fun _ _ => trivial
        exact moves.steady.has_generator id has
      simp only [conclude] at has ⊢
      rw [status_abandon has, status_leave there, same, Status.after]
    | _ => cases sane
  | false =>
    rw [finish_of_calm acc calm balanced sane] at has ⊢
    rw [has_settlePanic] at has
    rw [status_congr (generators_settlePanic _ _)]
    obtain ⟨hs, given⟩ := (w.restored t).settle_snd t.context t.closing sane
    rw [given] at has ⊢
    obtain ⟨stopped, -, left⟩ := has_restored has
    have status := status_restored left
    rw [status_drop has, status_stopped sane (by rw [status]) stopped, status]
    cases ending with
    | panics p => cases sane
    | _ => rfl

end World

/-! ## The record of an interpreted context -/

theorem Steady.record_eq {F : Footprint} {w v : World ε} (steady : Steady F w v) {r : RecordId}
    (other : ¬ F.records r) (given : r < w.records.next) (has : v.Has (.record r)) :
    (v.record r).state = (w.record r).state ∧
      ((v.record r).lastInstr = -1 ↔ (w.record r).lastInstr = -1) := by
  obtain ⟨y, found⟩ := Option.isSome_iff_exists.mp has
  obtain ⟨x, there, keeps⟩ := steady.records.old given found
  rw [World.record_of_get? there, World.record_of_get? found]
  exact keeps.resolve_left other

theorem Steady.has_record {F : Footprint} {w v : World ε} (steady : Steady F w v) {r : RecordId}
    (given : r < w.records.next) (has : v.Has (.record r)) : w.Has (.record r) := by
  obtain ⟨y, found⟩ := Option.isSome_iff_exists.mp has
  obtain ⟨x, there, -⟩ := steady.records.old given found
  exact Option.isSome_iff_exists.mpr ⟨x, there⟩

namespace World

theorem setIp_of_record {w : World ε} {f : FrameId} {r : RecordId} (own : (w.frame f).record = some r)
    (ip : Int) : w.setIp f ip = (w.modifyFrame f fun x => { x with ip := ip }).setLastInstr r ip := by
  have still : ((w.modifyFrame f fun x => { x with ip := ip }).frame f).record = some r :=
    (frame_modifyFrame Frame.record w f f (fun x => { x with ip := ip }) fun _ => rfl).trans own
  simp only [setIp, still]

/-- A body that takes over leaves the start. -/
theorem record_begin {w : World ε} {g : GenId} {r : RecordId} (throwing : Bool)
    (backing : (w.generator g).backing = .interpreted (some r))
    (own : (w.frame (w.generator g).frame).record = some r) (has : w.Has (.record r)) :
    ((w.begin g throwing).record r).state = .executing ∧ ((w.begin g throwing).record r).lastInstr ≠ -1 := by
  obtain ⟨x, found⟩ := Option.isSome_iff_exists.mp has
  -- a position before the first instruction is moved to it
  have placed : ∃ y : Record, 0 ≤ y.lastInstr ∧
      (if w.lastInstr (w.generator g).frame < 0 then w.setIp (w.generator g).frame 0
        else w).records.get? r = some y := by
    have read : w.lastInstr (w.generator g).frame = x.lastInstr := by
      simp only [lastInstr, own, record_of_get? found]
    rw [read]
    split
    · refine ⟨{ x with lastInstr := 0 }, Int.le_refl 0, ?_⟩
      rw [setIp_of_record own]
      simp only [setLastInstr, modifyRecord, modifyFrame, Store.get?_modify, if_true, found, Option.map_some]
    · exact ⟨x, by omega, found⟩
  obtain ⟨y, nonneg, reached⟩ := placed
  simp only [begin, backing]
  generalize (if w.lastInstr (w.generator g).frame < 0 then w.setIp (w.generator g).frame 0 else w) = v
    at reached ⊢
  have final : ∀ e, ((v.setState r .executing).emit e).record r = { y with state := .executing } := fun e => by
    refine record_of_get? ?_
    simp [emit, setState, modifyRecord, Store.get?_modify, reached]
  rw [final]
  refine ⟨rfl, ?_⟩
  show y.lastInstr ≠ -1
  omega

theorem record_suspend {w : World ε} {g : GenId} {r : RecordId}
    (backing : (w.generator g).backing = .interpreted (some r)) (has : w.Has (.record r)) :
    ((w.suspend g).record r).state = .suspended ∧
      ((w.suspend g).record r).lastInstr = (w.record r).lastInstr := by
  obtain ⟨x, found⟩ := Option.isSome_iff_exists.mp has
  have final : (w.suspend g).record r = { x with state := .suspended } := by
    refine record_of_get? ?_
    simp [suspend, backing, emit, setState, modifyRecord, modifyGenerator, Store.get?_modify, found]
  rw [final, record_of_get? found]
  exact ⟨rfl, rfl⟩

end World

end Activation
