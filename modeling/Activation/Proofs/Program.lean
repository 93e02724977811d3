import Activation.Generator.Resume
import Activation.World.Walk
import Mathlib.Data.Multiset.AddSub

/-! # Programs

A program drives the library. It makes things, hands handles around and asks contexts to go on; the bodies
of its contexts do the same while they run, so requests nest to any depth.

* `Config`: the world, the turns under way with the innermost first, and the handles outside the world.
* `Op`: one call of the library other than a request to resume.
* `Op.Mild`: after the call no release fails that would not have failed before.
* `Step`: a mild `Op`, a request that is answered at once, the begin of a turn, or the end of the innermost turn.
  A body is free to take any steps between the begin and the end of its turn.
* `Run`: any number of steps; `Kept rule`: any number of steps that all keep to a rule.
* `Act`, `Course rule`: the same for programs whose calls need not be mild.
* `Kept.resume`: `World.resume` takes such steps, if the host runs its bodies as programs.
-/

namespace Activation
set_option autoImplicit false

/-! ## Handles on the move -/

def Ending.held : Ending → List Handle
  | .yields o => [.object o]
  | .returns o => [.object o]
  | .raises e => e.held
  | .panics _ => []

/-- A turn keeps its context alive, and its guard the frame. -/
def Turn.held (t : Turn) : List Handle := [.generator t.context, .frame t.frame]

def Stack.held (s : Stack) : List Handle := s.current.toList.map .frame

/-- What a request brings along. -/
def Injection.offered (inj : Injection) (external : Option RecordId) : List Handle :=
  external.toList.map .record ++ inj.held

def Ending.isPanic : Ending → Bool
  | .panics _ => true
  | _ => false

def Ending.isYield : Ending → Bool
  | .yields _ => true
  | _ => false

namespace World

variable {ε : Type}

/-- Whether the thing of a handle is there. -/
def Has (w : World ε) : Handle → Prop
  | .object o => (w.objects.get? o).isSome
  | .record r => (w.records.get? r).isSome
  | .frame f => (w.frames.get? f).isSome
  | .below f => (w.frames.get? f).isSome
  | .generator g => (w.generators.get? g).isSome

/-- One more handle of the same sort. -/
def hold (w : World ε) : Handle → World ε
  | .object o => w.retain o
  | .record r => w.holdRecord r
  | .frame f => w.holdFrame f
  | .below f => w.holdFrame f
  | .generator g => w.holdGenerator g

/-- Everything that has to do with handles is left alone. -/
structure Quiet (w v : World ε) : Prop where
  objects : v.objects = w.objects
  records : v.records = w.records
  frames : v.frames = w.frames
  generators : v.generators = w.generators
  stack : v.stack = w.stack
  deaths : v.deaths = w.deaths
  fault : v.fault = w.fault

/-- The end of a turn, as the caller of the request sees it. -/
def finish (w : World ε) (t : Turn) (ending : Ending) : Resumption × World ε :=
  settlePanic (w.conclude t ending).1 (w.conclude t ending).2

end World

/-! ## Calls of the library -/

inductive Op where
  | newObject (type : TypeInfo) (payload : Payload)
  | newImmortal (type : TypeInfo) (payload : Payload)
  | clone (h : Handle)
  | drop (h : Handle)
  | markImmortal (o : ObjId)
  | setCount (o : ObjId) (count : Count)
  | newRecord (x : Record)
  | setSlot (r : RecordId) (i : Nat) (o : ObjId)
  | slot (r : RecordId) (i : Nat)
  | clear (r : RecordId)
  | setState (r : RecordId) (s : RecordState)
  | setLastInstr (r : RecordId) (ip : Int)
  | newFrame (code : Code) (builder : Option BuilderId)
  | newInterpretedFrame (r : RecordId)
  | setIp (f : FrameId) (ip : Int)
  | setFrameAwaiter (f : FrameId) (a : Option FrameId)
  /-- The builder of the frame makes this record. -/
  | materialize (f : FrameId) (x : Record)
  | bindRecord (f : FrameId) (r : RecordId)
  | push (f : FrameId)
  | pop
  | enter (f : FrameId)
  /-- Drops the guard of a frame; a panic is caught. -/
  | leave (f : FrameId)
  | newCompiled (kind : GeneratorKind) (code : Code) (builder : Option BuilderId) (body : BodyId)
  | newInterpreted (kind : GeneratorKind) (r : RecordId) (body : BodyId)
  | wrap (g : GenId)
  | setAwaiter (g : GenId) (a : Option GenId)
  | findFirstArg (name : String) (skip : Nat)

/-- A host that builds one record. -/
def Host.building {ε : Type} (x : Record) : Host ε where
  step := fun _ _ _ w => (.returns nothing, w)
  build := fun _ _ _ w => (.ok x, w)

namespace Op

variable {ε : Type}

/-- The handles that a call takes over. -/
def takes : Op → List Handle
  | .newObject type payload => Object.held ⟨.fresh, type, payload⟩
  | .newImmortal type payload => Object.held ⟨.immortal, type, payload⟩
  | .drop h => [h]
  | .newRecord x => x.held
  | .setSlot _ _ o => [.object o]
  | .newInterpretedFrame r => [.record r]
  | .materialize _ x => x.held
  | .bindRecord _ r => [.record r]
  | .leave f => [.frame f]
  | .newInterpreted _ r _ => [.record r]
  | .wrap g => [.generator g]
  | _ => []

/-- The things that a call refers to without taking a handle; they have to be there. -/
def names : Op → List Handle
  | .clone h => [h]
  | .markImmortal o => [.object o]
  | .setCount o _ => [.object o]
  | .setSlot r _ _ => [.record r]
  | .slot r _ => [.record r]
  | .clear r => [.record r]
  | .setState r _ => [.record r]
  | .setLastInstr r _ => [.record r]
  | .setIp f _ => [.frame f]
  | .setFrameAwaiter f a => .frame f :: a.toList.map .frame
  | .materialize f _ => [.frame f]
  | .bindRecord f _ => [.frame f]
  | .push f => [.frame f]
  | .enter f => [.frame f]
  | .setAwaiter g a => .generator g :: a.toList.map .generator
  | _ => []

/-- What else a call is made under: a new record has one owner, and a record is built for a compact frame
that has a builder. -/
def Fits (w : World ε) : Op → Prop
  | .newRecord x => x.owners = 1
  | .materialize f x => (w.frame f).record = none ∧ (w.frame f).builder.isSome ∧ x.owners = 1
  | _ => True

/-- A count is never overwritten, and the destructors of the objects that can die only look on. So the count of an
object is the number of handles on it, and giving back a handle does not fail. -/
def Mild : Op → Prop
  | .newObject type _ => type.destructor.Observes
  | .setCount _ _ => False
  | _ => True

/-- The handles that a call gives out, and the world after it. A frame that cannot be pushed leaves the
world as it was. -/
def run : Op → World ε → List Handle × World ε
  | .newObject type payload, w => ([.object (w.newObject type payload).1], (w.newObject type payload).2)
  | .newImmortal type payload, w =>
    ([.object (w.newImmortal type payload).1], (w.newImmortal type payload).2)
  | .clone h, w => ([h], w.hold h)
  | .drop h, w => ([], w.drop [h])
  | .markImmortal o, w => ([], w.markImmortal o)
  | .setCount o count, w => ([], w.setCount o count)
  | .newRecord x, w => ([.record (w.addRecord x).1], (w.addRecord x).2)
  | .setSlot r i o, w => ([], w.setSlot r i o)
  | .slot r i, w => ((w.slot r i).1.toList.map .object, (w.slot r i).2)
  | .clear r, w => ([], w.clear r)
  | .setState r s, w => ([], w.setState r s)
  | .setLastInstr r ip, w => ([], w.setLastInstr r ip)
  | .newFrame code builder, w =>
    ([.frame (w.addFrame (.compiled code builder)).1], (w.addFrame (.compiled code builder)).2)
  | .newInterpretedFrame r, w => ([.frame (w.addInterpretedFrame r).1], (w.addInterpretedFrame r).2)
  | .setIp f ip, w => ([], w.setIp f ip)
  | .setFrameAwaiter f a, w => ([], w.setFrameAwaiter f a)
  | .materialize f x, w => ([], (w.materialize (.building x) f).2)
  | .bindRecord f r, w => ([], (w.bindRecord f r).2)
  | .push f, w =>
    match w.push f with
    | .ok v => ([], v)
    | .error _ => ([], w)
  | .pop, w => (w.pop.1.toList.map .frame, w.pop.2)
  | .enter f, w =>
    match w.enter f with
    | .ok v => ([.frame f], v)
    | .error _ => ([], w)
  | .leave f, w => ([], (w.leave f).catchPanic.2)
  | .newCompiled kind code builder body, w =>
    ([.generator (w.addCompiled kind code builder body).1], (w.addCompiled kind code builder body).2)
  | .newInterpreted kind r body, w =>
    ([.generator (w.addInterpreted kind r body).1], (w.addInterpreted kind r body).2)
  | .wrap g, w => ([.object (w.wrap g).1], (w.wrap g).2)
  | .setAwaiter g a, w => ([], (w.setAwaiter g a).2)
  | .findFirstArg name skip, w =>
    ((w.findFirstArg name skip).1.toOption.join.toList.map .object, (w.findFirstArg name skip).2)

end Op

/-! ## Steps -/

/-- A state of a program. -/
structure Config (ε : Type) where
  world : World ε
  /-- The runs of bodies that are under way, the innermost first. -/
  turns : List Turn
  /-- The handles in the hands of the program: under names, in exceptions, on the way in or out. -/
  owned : Multiset Handle
  /-- The handles that nobody can give back any more. -/
  lost : Multiset Handle

/-- What happens in a step. -/
inductive Label where
  | op (op : Op)
  | quiet
  /-- A request that ends without a turn. -/
  | answered (g : GenId) (inj : Injection) (external : Option RecordId) (result : Resumption)
  /-- A request that hands control to a body. -/
  | entered (t : Turn) (inj : Injection) (external : Option RecordId)
  /-- The innermost turn ends with its frame on top of the stack. -/
  | ended (t : Turn) (ending : Ending) (result : Resumption)
  /-- The innermost turn ends without its frame on top of the stack. -/
  | strayed (t : Turn) (ending : Ending) (result : Resumption)

def Label.Mild : Label → Prop
  | .op call => call.Mild
  | _ => True

variable {ε : Type}

/-- One step. Who asks a context to go on holds a handle on it, which the turn keeps meanwhile. What a body
hands over when it strays is lost. A body that strays while it panics ends the program, so there is no step.
No step is the cause of a release that fails; `Act` leaves that out. -/
inductive Step : Config ε → Label → Config ε → Prop where
  | op {c : Config ε} (op : Op) {rest : Multiset Handle} (named : ∀ h ∈ op.names, c.world.Has h)
      (fits : op.Fits c.world) (takes : c.owned = ↑op.takes + rest) (mild : op.Mild) :
      Step c (.op op) { c with world := (op.run c.world).2, owned := ↑(op.run c.world).1 + rest }
  | quiet {c : Config ε} {w : World ε} (same : c.world.Quiet w) : Step c .quiet { c with world := w }
  | answered {c : Config ε} {g : GenId} {inj : Injection} {external : Option RecordId}
      {result : Resumption} {w : World ε} {rest : Multiset Handle}
      (takes : c.owned = .generator g ::ₘ ((inj.offered external : Multiset Handle) + rest))
      (received : c.world.receive g inj external = .answered result w) :
      Step c (.answered g inj external (World.settlePanic result w).1)
        { c with
          world := (World.settlePanic result w).2
          owned := .generator g ::ₘ (((World.settlePanic result w).1.held : Multiset Handle) + rest) }
  | entered {c : Config ε} {g : GenId} {inj : Injection} {external : Option RecordId} {t : Turn}
      {w : World ε} {rest : Multiset Handle}
      (takes : c.owned = .generator g ::ₘ ((inj.offered external : Multiset Handle) + rest))
      (received : c.world.receive g inj external = .entered t w) :
      Step c (.entered t inj external)
        { c with world := w, turns := t :: c.turns, owned := ↑inj.held + rest }
  | ended {c : Config ε} {t : Turn} {turns : List Turn} {ending : Ending} {rest : Multiset Handle}
      (innermost : c.turns = t :: turns) (balanced : c.world.stack.current = some t.frame)
      (takes : c.owned = ↑ending.held + rest) :
      Step c (.ended t ending (c.world.finish t ending).1)
        { c with
          world := (c.world.finish t ending).2
          turns := turns
          owned := .generator t.context ::ₘ (((c.world.finish t ending).1.held : Multiset Handle) + rest) }
  | strayed {c : Config ε} {t : Turn} {turns : List Turn} {ending : Ending} {rest : Multiset Handle}
      (innermost : c.turns = t :: turns) (unbalanced : c.world.stack.current ≠ some t.frame)
      (calm : ending.isPanic = false) (takes : c.owned = ↑ending.held + rest) :
      Step c (.strayed t ending (c.world.finish t ending).1)
        { world := (c.world.finish t ending).2
          turns := turns
          owned := .generator t.context ::ₘ rest
          lost := ↑ending.held + c.lost }

/-- The turns under way after a step. -/
def Label.turns (under : List Turn) : Label → List Turn
  | .op _ => under
  | .quiet => under
  | .answered _ _ _ _ => under
  | .entered t _ _ => t :: under
  | .ended _ _ _ => under.tail
  | .strayed _ _ _ => under.tail

theorem Step.turns_eq {c d : Config ε} {l : Label} (step : Step c l d) : d.turns = l.turns c.turns := by
  cases step with
  | ended innermost => rw [Label.turns, innermost, List.tail_cons]
  | strayed innermost => rw [Label.turns, innermost, List.tail_cons]
  | _ => rfl

/-- Any number of steps, with what happened in each. -/
inductive Run (c : Config ε) : List Label → Config ε → Prop where
  | nil : Run c [] c
  | snoc {ls : List Label} {l : Label} {d e : Config ε} (run : Run c ls d) (step : Step d l e) :
      Run c (ls ++ [l]) e

namespace Run

theorem single {c d : Config ε} {l : Label} (step : Step c l d) : Run c [l] d := Run.snoc .nil step

theorem trans {c d e : Config ε} {ls ms : List Label} (first : Run c ls d) (later : Run d ms e) :
    Run c (ls ++ ms) e := by
  induction later with
  | nil => simpa using first
  | snoc _ step ih =>
    rw [← List.append_assoc]
    exact Run.snoc ih step

end Run

/-- Any number of steps that all keep to a rule. -/
inductive Kept (rule : Config ε → Label → Prop) (c : Config ε) : List Label → Config ε → Prop where
  | nil : Kept rule c [] c
  | snoc {ls : List Label} {l : Label} {d e : Config ε} (init : Kept rule c ls d) (step : Step d l e)
      (kept : rule d l) : Kept rule c (ls ++ [l]) e

namespace Kept

variable {rule : Config ε → Label → Prop} {c d e : Config ε} {l : Label} {ls ms : List Label}

theorem single (step : Step c l d) (kept : rule c l) : Kept rule c [l] d := Kept.snoc .nil step kept

theorem trans (first : Kept rule c ls d) (later : Kept rule d ms e) : Kept rule c (ls ++ ms) e := by
  induction later with
  | nil => simpa using first
  | snoc _ step kept ih =>
    rw [← List.append_assoc]
    exact Kept.snoc ih step kept

theorem run (kept : Kept rule c ls d) : Run c ls d := by
  induction kept with
  | nil => exact .nil
  | snoc _ step _ ih => exact .snoc ih step

theorem of_run (run : Run c ls d) : Kept (fun _ _ => True) c ls d := by
  induction run with
  | nil => exact .nil
  | snoc _ step ih => exact .snoc ih step trivial

end Kept

/-! ## Programs whose calls need not be mild -/

theorem Step.mild {c d : Config ε} {l : Label} (step : Step c l d) : l.Mild := by
  cases step with
  | op _ _ _ _ mild => exact mild
  | _ => trivial

/-- One step of a program that may overwrite counts, and whose destructors may panic. A panic of a call is caught. -/
inductive Act : Config ε → Label → Config ε → Prop where
  | step {c d : Config ε} {l : Label} (step : Step c l d) : Act c l d
  | call {c : Config ε} (op : Op) {rest : Multiset Handle} (named : ∀ h ∈ op.names, c.world.Has h)
      (fits : op.Fits c.world) (takes : c.owned = ↑op.takes + rest) :
      Act c (.op op) { c with world := (op.run c.world).2.catchPanic.2, owned := ↑(op.run c.world).1 + rest }

/-- Any number of such steps that all keep to a rule. A count below zero ends the program, and so does a panic while
another one unwinds; there are no steps from there on. -/
inductive Course (rule : Config ε → Label → Prop) (c : Config ε) : List Label → Config ε → Prop where
  | nil : Course rule c [] c
  | snoc {ls : List Label} {l : Label} {d e : Config ε} (init : Course rule c ls d) (act : Act d l e)
      (kept : rule d l) (alive : e.world.fault = none) : Course rule c (ls ++ [l]) e

namespace Course

variable {rule : Config ε → Label → Prop} {c d e : Config ε} {l : Label} {ls ms : List Label}

theorem single (act : Act c l d) (kept : rule c l) (alive : d.world.fault = none) : Course rule c [l] d :=
  Course.snoc .nil act kept alive

theorem trans (first : Course rule c ls d) (later : Course rule d ms e) : Course rule c (ls ++ ms) e := by
  induction later with
  | nil => simpa using first
  | snoc _ act kept alive ih =>
    rw [← List.append_assoc]
    exact Course.snoc ih act kept alive

end Course

/-! ## Bodies -/

/-- The host runs a body as a program, which hands over what it ends with and has its frame on top of the stack
again. -/
structure Host.Runs (host : Host ε) (rule : Config ε → Label → Prop) (c : Config ε) (g : GenId) (t : Turn)
    (inj : Injection) (ls : List Label) (d : Config ε) : Prop where
  body : Kept rule c ls d
  world : d.world = (host.step t.body g inj.input c.world).2
  turns : d.turns = c.turns
  balanced : d.world.stack.current = some t.frame
  takes : ∃ rest : Multiset Handle, d.owned = ↑(host.step t.body g inj.input c.world).1.held + rest
  kept : ∀ ending result, rule d (.ended t ending result)

/-- A request is answered at once, or its body runs; either way the program goes through steps to the world after
the request, and the last step tells the result. -/
theorem Kept.resume {rule : Config ε → Label → Prop} {host : Host ε} {c : Config ε} {g : GenId} {inj : Injection}
    {external : Option RecordId} {rest : Multiset Handle}
    (takes : c.owned = .generator g ::ₘ ((inj.offered external : Multiset Handle) + rest))
    (asks : ∀ result, rule c (.answered g inj external result)) (enters : ∀ t, rule c (.entered t inj external))
    (runs : ∀ {t w}, c.world.receive g inj external = .entered t w → ∃ ls d,
      host.Runs rule { c with world := w, turns := t :: c.turns, owned := ↑inj.held + rest } g t inj ls d) :
    ∃ ls l d, Kept rule c (ls ++ [l]) d ∧ d.world = (c.world.resume host g inj external).2 ∧ d.turns = c.turns ∧
      (l = .answered g inj external (c.world.resume host g inj external).1 ∨
        ∃ t ending, l = .ended t ending (c.world.resume host g inj external).1) := by
  cases received : c.world.receive g inj external with
  | answered result w =>
    have step := Step.answered takes received
    have answer : c.world.resume host g inj external = World.settlePanic result w := by
      simp only [World.resume, World.attempt, received]
    rw [answer]
    exact ⟨[], _, _, .single step (asks _), rfl, rfl, .inl rfl⟩
  | entered t w =>
    obtain ⟨ls, d, run⟩ := runs received
    obtain ⟨rest', held⟩ := run.takes
    have answer : c.world.resume host g inj external = d.world.finish t (host.step t.body g inj.input w).1 := by
      simp only [World.resume, World.attempt, received, World.finish, run.world]
    have first := Kept.single (Step.entered takes received) (enters t)
    have last := Step.ended run.turns run.balanced held
    rw [answer]
    exact ⟨_, _, _, .snoc (first.trans run.body) last (run.kept _ _), rfl, rfl, .inr ⟨t, _, rfl⟩⟩

namespace Config

/-- The begin of a program: only the object without a value is there. -/
def start (host : ε) : Config ε := ⟨{ host := host }, [], 0, 0⟩

/-- The handles outside the world that the program cannot hand around. -/
def reserved (c : Config ε) : Multiset Handle := c.lost + ↑(c.turns.flatMap Turn.held)

/-- All handles outside the world. -/
def outside (c : Config ε) : Multiset Handle := c.owned + c.reserved

end Config

end Activation
