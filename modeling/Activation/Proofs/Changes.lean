import Activation.Proofs.Lifecycle.Status
import Mathlib.Logic.Relation

/-! # Changes to the world

What the functions of the library do to objects, contexts and frames, whoever holds the handles and whatever the
counts say. Nothing here needs the handles to be accounted for.

* `Change unlinks`: one change. It sets no awaiter, and clears the links of a context only if `unlinks` allows it.
* `Changes unlinks`: any number of changes.
* `Step.changes`: a step that neither makes a context nor exempts an object nor sets an awaiter is a sequence of
  changes.
-/

namespace Activation
set_option autoImplicit false

variable {ε : Type}

theorem World.sink_eq (w : World ε) (n : Int) : w.sink n = { w with fault := (w.sink n).fault } := by
  unfold World.sink
  split <;> rfl

/-- A handle on an object is given back without a change to any other thing. -/
theorem World.giveBackObject_eq (w : World ε) (o : ObjId) : ∃ objects total events deaths fault,
    (w.giveBackObject o).1 =
      { w with objects := objects, refTotal := total, events := events, deaths := deaths, fault := fault } := by
  unfold World.giveBackObject
  split
  · exact ⟨_, _, _, _, _, rfl⟩
  next x _ =>
  split
  · exact ⟨_, _, _, _, _, rfl⟩
  · rw [World.panic_eq]
    exact ⟨_, _, _, _, _, rfl⟩
  · next next _ =>
    obtain ⟨total, events, eq⟩ := w.setHeader_noteRelease_eq o next
    rw [World.sink_eq, eq]
    exact ⟨_, _, _, _, _, rfl⟩
  · next next _ =>
    obtain ⟨total, events, eq⟩ := w.setHeader_noteRelease_eq o next
    rw [eq]
    exact ⟨_, _, _, _, _, rfl⟩
  · next next _ =>
    unfold World.bury
    split
    · obtain ⟨total, events, eq⟩ := w.setHeader_noteRelease_eq o next
      rw [World.panic_eq, eq]
      exact ⟨_, _, _, _, _, rfl⟩
    · obtain ⟨total, events, deaths, eq⟩ := w.eraseObject_noteDeath_eq o x next
      rw [eq]
      exact ⟨_, _, _, _, _, rfl⟩

theorem World.retain_eq (w : World ε) (o : ObjId) : ∃ objects total events,
    w.retain o = { w with objects := objects, refTotal := total, events := events } := by
  unfold World.retain
  split
  · exact ⟨_, _, _, rfl⟩
  · next next _ =>
    obtain ⟨total, events, eq⟩ := w.setHeader_noteRetain_eq o next
    exact ⟨_, _, _, eq⟩

inductive Change (unlinks : Prop) : World ε → World ε → Prop where
  /-- Records, the stack, faults and reports. -/
  | other {w v : World ε} (objects : v.objects = w.objects) (frames : v.frames = w.frames)
      (generators : v.generators = w.generators) (refTotal : v.refTotal = w.refTotal) : Change unlinks w v
  | retain {w : World ε} (o : ObjId) : Change unlinks w (w.retain o)
  | newObject {w : World ε} (type : TypeInfo) (payload : Payload) :
      Change unlinks w (w.newObject type payload).2
  | giveBack {w : World ε} (h : Handle) : Change unlinks w (w.giveBack h).1
  | addFrame {w : World ε} {x : Frame} (unawaited : x.awaiter = none) : Change unlinks w (w.addFrame x).2
  | editFrame {w : World ε} (i : FrameId) (f : Frame → Frame) (awaiter : ∀ x, (f x).awaiter = x.awaiter) :
      Change unlinks w (w.modifyFrame i f)
  | editGenerator {w : World ε} (g : GenId) (f : Generator → Generator) (kind : ∀ x, (f x).kind = x.kind)
      (frame : ∀ x, (f x).frame = x.frame) (awaiter : ∀ x, (f x).awaiter = x.awaiter) :
      Change unlinks w (w.modifyGenerator g f)
  | unlink {w : World ε} (g : GenId) (allowed : unlinks) : Change unlinks w (w.linkAwaiter g none)

abbrev Changes (unlinks : Prop) : World ε → World ε → Prop := Relation.ReflTransGen (Change unlinks)

namespace Changes

variable {unlinks : Prop} {w v : World ε}

theorem other (objects : v.objects = w.objects) (frames : v.frames = w.frames)
    (generators : v.generators = w.generators) (refTotal : v.refTotal = w.refTotal) : Changes unlinks w v :=
  .single (.other objects frames generators refTotal)

theorem emit (e : Event) : Changes unlinks w (w.emit e) := other rfl rfl rfl rfl

theorem setFault (x : Option Fault) : Changes unlinks w { w with fault := x } := other rfl rfl rfl rfl

theorem panic (p : Panic) : Changes unlinks w (w.panic p) := by
  rw [World.panic_eq]
  exact setFault _

theorem catchPanic : Changes unlinks w w.catchPanic.2 := by
  rw [World.catchPanic_eq]
  exact setFault _

theorem settlePanic (result : Resumption) : Changes unlinks w (World.settlePanic result w).2 := by
  rw [World.settlePanic_snd]
  exact catchPanic

theorem cleanUp {f : World ε → World ε} (ran : ∀ v, Changes unlinks v (f v)) : Changes unlinks w (w.cleanUp f) := by
  have caught : Changes unlinks w w.catchPanic.2 := catchPanic
  unfold World.cleanUp
  cases first : w.catchPanic with
  | mk p v =>
    rw [first] at caught
    have inner := caught.trans (ran v)
    cases p with
    | none => exact inner
    | some p =>
      have again := inner.trans (catchPanic (w := f v))
      simp only
      cases second : (f v).catchPanic with
      | mk q u =>
        rw [second] at again
        cases q with
        | none => exact again.trans (setFault _)
        | some q => exact again.trans (setFault _)

/-! ## Handles -/

theorem drop (w : World ε) (hs : List Handle) : Changes unlinks w (w.drop hs) := by
  fun_induction World.drop w hs with
  | case1 w => exact .refl
  | case2 w h hs before next ih => exact .head (.giveBack h) ih

theorem release (o : ObjId) : Changes unlinks w (w.release o) := drop w _

theorem hold (h : Handle) : Changes unlinks w (w.hold h) := by
  cases h with
  | object o => exact .single (.retain o)
  | record r => exact other rfl rfl rfl rfl
  | frame f => exact .single (.editFrame f _ fun _ => rfl)
  | below f => exact .single (.editFrame f _ fun _ => rfl)
  | generator g => exact .single (.editGenerator g _ (fun _ => rfl) (fun _ => rfl) fun _ => rfl)

/-! ## Records -/

theorem modifyRecord (r : RecordId) (f : Record → Record) : Changes unlinks w (w.modifyRecord r f) :=
  other rfl rfl rfl rfl

theorem slot (r : RecordId) (i : Nat) : Changes unlinks w (w.slot r i).2 := by
  unfold World.slot
  split
  · exact .refl
  · exact .single (.retain _)

theorem setSlot (r : RecordId) (i : Nat) (o : ObjId) : Changes unlinks w (w.setSlot r i o) :=
  (modifyRecord r _).trans (drop _ _)

theorem clear (r : RecordId) : Changes unlinks w (w.clear r) := by
  have emptied : Changes unlinks w ((w.modifyRecord r fun x => { x with slots := [] }).drop (w.record r).held) :=
    (modifyRecord r _).trans (drop _ _)
  simp only [World.clear]
  split
  · exact emptied
  · exact emptied.trans (modifyRecord r _)

/-! ## Frames and the stack -/

theorem setIp (f : FrameId) (ip : Int) : Changes unlinks w (w.setIp f ip) := by
  have moved : Changes unlinks w (w.modifyFrame f fun x => { x with ip := ip }) :=
    .single (.editFrame f _ fun _ => rfl)
  simp only [World.setIp]
  split
  · exact moved.trans (modifyRecord _ _)
  · exact moved

theorem bindRecord (f : FrameId) (r : RecordId) : Changes unlinks w (w.bindRecord f r).2 := by
  unfold World.bindRecord
  split
  · exact drop w _
  · exact .single (.editFrame f _ fun _ => rfl)

theorem materialize (x : Record) (f : FrameId) : Changes unlinks w (w.materialize (.building x) f).2 := by
  simp only [World.materialize, Host.building]
  split
  · exact .refl
  · exact .refl
  · have added : Changes unlinks w (w.addRecord { x with lastInstr := (w.frame f).ip }).2 := other rfl rfl rfl rfl
    exact (added.trans (emit _)).tail (.editFrame f _ fun _ => rfl)

theorem push {f : FrameId} (pushed : w.push f = .ok v) : Changes unlinks w v := by
  unfold World.push at pushed
  split at pushed
  · cases pushed
  · split at pushed
    · cases pushed
    · cases pushed
      have linked : Changes unlinks (w.holdFrame f)
          ((w.holdFrame f).modifyFrame f fun x => { x with prev := w.stack.current }) :=
        .single (.editFrame f _ fun _ => rfl)
      exact ((hold (.frame f)).trans linked).trans (other rfl rfl rfl rfl)

theorem pop : Changes unlinks w w.pop.2 := by
  unfold World.pop
  split
  · exact .refl
  · next f _ =>
    have unlinked : Changes unlinks w (w.modifyFrame f fun x => { x with prev := none }) :=
      .single (.editFrame f _ fun _ => rfl)
    exact unlinked.trans (other rfl rfl rfl rfl)

theorem enter {f : FrameId} (entered : w.enter f = .ok v) : Changes unlinks w v := by
  unfold World.enter at entered
  cases pushed : w.push f with
  | error p =>
    rw [pushed] at entered
    cases entered
  | ok u =>
    rw [pushed] at entered
    cases entered
    exact (push pushed).trans (hold (.frame f))

theorem leave (f : FrameId) : Changes unlinks w (w.leave f) := by
  rw [World.leave_eq]
  refine Relation.ReflTransGen.trans ?_ (drop _ _)
  split
  · exact pop
  · exact pop.trans (panic _)

theorem reportWalk (r : Except WalkError Nat) : Changes unlinks w (w.reportWalk r) := by
  unfold World.reportWalk
  split
  · exact emit _
  · exact emit _
  · exact .refl

theorem findFirstArg (name : String) (skip : Nat) : Changes unlinks w (w.findFirstArg name skip).2 := by
  rcases w.findFirstArg_cases name skip with ⟨r, k, eq⟩ | ⟨k, -, eq⟩
  · rw [eq]
    exact (slot r 0).trans (reportWalk (.ok k))
  · rw [eq]
    exact reportWalk k

/-! ## Contexts -/

theorem editGenerator (g : GenId) (f : Generator → Generator) (kind : ∀ x, (f x).kind = x.kind)
    (frame : ∀ x, (f x).frame = x.frame) (awaiter : ∀ x, (f x).awaiter = x.awaiter) :
    Changes unlinks w (w.modifyGenerator g f) := .single (.editGenerator g f kind frame awaiter)

theorem begin (g : GenId) (throwing : Bool) : Changes unlinks w (w.begin g throwing) := by
  have placed : Changes unlinks w
      (if w.lastInstr (w.generator g).frame < 0 then w.setIp (w.generator g).frame 0 else w) := by
    split
    · exact setIp _ _
    · exact .refl
  simp only [World.begin]
  generalize (if w.lastInstr (w.generator g).frame < 0 then w.setIp (w.generator g).frame 0 else w) = v
    at placed ⊢
  refine placed.trans (Relation.ReflTransGen.trans ?_ (emit _))
  split
  · exact editGenerator g _ (fun _ => rfl) (fun _ => rfl) fun _ => rfl
  · exact modifyRecord _ _
  · exact .refl

theorem suspend (g : GenId) : Changes unlinks w (w.suspend g) := by
  have counted : Changes unlinks w (w.modifyGenerator g fun x => { x with yields := (w.generator g).yields + 1 }) :=
    editGenerator g _ (fun _ => rfl) (fun _ => rfl) fun _ => rfl
  simp only [World.suspend]
  refine counted.trans (Relation.ReflTransGen.trans ?_ (emit _))
  split
  · exact editGenerator g _ (fun _ => rfl) (fun _ => rfl) fun _ => rfl
  · exact modifyRecord _ _
  · exact .refl

theorem vacate (g : GenId) (final : RecordState) : Changes unlinks w (w.vacate g final) := by
  unfold World.vacate
  split
  · exact editGenerator g _ (fun _ => rfl) (fun _ => rfl) fun _ => rfl
  · exact .refl
  · next r _ =>
    have vacant : Changes unlinks w (w.modifyGenerator g fun x => { x with backing := .interpreted none }) :=
      editGenerator g _ (fun _ => rfl) (fun _ => rfl) fun _ => rfl
    simp only [World.retire]
    refine (vacant.trans (clear r)).trans (Relation.ReflTransGen.trans ?_ (drop _ _))
    split
    · exact .refl
    · exact modifyRecord r _

theorem complete (g : GenId) (final : RecordState) (allowed : unlinks) : Changes unlinks w (w.complete g final) := by
  simp only [World.complete]
  refine (vacate g final).trans ?_
  split
  · exact .refl
  · split
    · exact .head (.unlink g allowed) (emit _)
    · exact emit _

theorem abandon (g : GenId) (allowed : unlinks) : Changes unlinks w (w.abandon g) :=
  (emit _).trans (cleanUp fun _ => complete g .raised allowed)

theorem settle (g : GenId) (closing : Bool) (ending : Ending) (allowed : unlinks) :
    Changes unlinks w (w.settle g closing ending).2 := by
  cases ending with
  | yields o =>
    simp only [World.settle]
    split
    · exact (suspend g).trans (release o)
    · exact suspend g
  | returns o =>
    simp only [World.settle]
    split
    · exact (complete g _ allowed).trans (release o)
    · exact complete g _ allowed
  | raises e =>
    simp only [World.settle]
    split
    · exact (complete g _ allowed).trans (drop _ _)
    · split
      · exact (complete g _ allowed).trans (drop _ _)
      · exact complete g _ allowed
  | panics p => exact (panic p).trans (abandon _ allowed)

/-! ## Requests -/

theorem takeBody (g : GenId) (external : Option RecordId) : Changes unlinks w (w.takeBody g external) := by
  have taken : Changes unlinks w (w.modifyGenerator g fun x => { x with body := none }) :=
    editGenerator g _ (fun _ => rfl) (fun _ => rfl) fun _ => rfl
  cases external with
  | none => exact taken
  | some r => exact taken.trans (bindRecord _ r)

end Changes

/-- The world after a request has been received. -/
def Admission.world : Admission ε → World ε
  | .answered _ w => w
  | .entered _ w => w

namespace Changes

variable {unlinks : Prop} {w v : World ε}

theorem startTurn (g : GenId) (body : BodyId) (inj : Injection) (allowed : unlinks) :
    Changes unlinks w (w.startTurn g body inj).world := by
  simp only [World.startTurn]
  split
  · exact ((panic _).trans (abandon _ allowed)).trans (drop _ _)
  · next entered => exact enter entered

theorem receive (g : GenId) (inj : Injection) (external : Option RecordId) (allowed : unlinks) :
    Changes unlinks w (w.receive g inj external).world := by
  simp only [World.receive]
  split
  · exact drop w _
  · exact drop w _
  · exact drop w _
  · exact (complete g _ allowed).trans (drop _ _)
  · split
    · exact (takeBody g external).trans (drop _ _)
    · exact ((takeBody g external).trans (begin g _)).trans (startTurn g _ inj allowed)

theorem conclude (t : Turn) (ending : Ending) (allowed : unlinks) :
    Changes unlinks w (w.conclude t ending).2 := by
  cases sane : ending.isPanic with
  | true =>
    cases ending with
    | panics p =>
      simp only [World.conclude]
      exact ((panic p).trans (leave t.frame)).trans (abandon _ allowed)
    | _ => cases sane
  | false =>
    rw [w.conclude_of_calm t sane]
    split
    · exact leave t.frame
    · have restored : Changes unlinks (w.leave t.frame)
          ((w.leave t.frame).modifyGenerator t.context fun x => { x with body := some t.body }) :=
        editGenerator _ _ (fun _ => rfl) (fun _ => rfl) fun _ => rfl
      exact ((leave t.frame).trans restored).trans (settle _ _ ending allowed)

theorem finish (t : Turn) (ending : Ending) (allowed : unlinks) :
    Changes unlinks w (w.finish t ending).2 := (conclude t ending allowed).trans (settlePanic _)

end Changes

/-! ## Steps -/

/-- A call that makes no context, exempts no object, overwrites no count, and sets no awaiter. -/
def Op.Plain : Op → Prop
  | .newImmortal _ _ | .markImmortal _ | .setCount _ _ => False
  | .newCompiled _ _ _ _ | .newInterpreted _ _ _ => False
  | .setAwaiter _ _ | .setFrameAwaiter _ _ => False
  | _ => True

def Label.Plain : Label → Prop
  | .op call => call.Plain
  | .quiet => False
  | _ => True

theorem Op.changes {unlinks : Prop} {op : Op} (plain : op.Plain) (w : World ε) :
    Changes unlinks w (op.run w).2 := by
  cases op with
  | newObject type payload => exact .single (.newObject type payload)
  | clone h => exact .hold h
  | drop h => exact .drop w _
  | newRecord x => exact .other rfl rfl rfl rfl
  | setSlot r i o => exact .setSlot r i o
  | slot r i => exact .slot r i
  | clear r => exact .clear r
  | setState r s => exact .modifyRecord r _
  | setLastInstr r ip => exact .modifyRecord r _
  | newFrame code builder => exact .single (.addFrame rfl)
  | newInterpretedFrame r => exact .single (.addFrame rfl)
  | setIp f ip => exact .setIp f ip
  | materialize f x => exact .materialize x f
  | bindRecord f r => exact .bindRecord f r
  | push f =>
    simp only [Op.run]
    split
    · next pushed => exact .push pushed
    · exact .refl
  | pop => exact .pop
  | enter f =>
    simp only [Op.run]
    split
    · next entered => exact .enter entered
    · exact .refl
  | leave f => exact (Changes.leave f).trans Changes.catchPanic
  | wrap g => exact .single (.newObject _ _)
  | findFirstArg name skip => exact .findFirstArg name skip
  | _ => exact plain.elim

theorem Step.changes {c d : Config ε} {l : Label} (step : Step c l d) (plain : l.Plain) :
    Changes True c.world d.world := by
  cases step with
  | op op _ _ _ => exact op.changes plain c.world
  | quiet _ => exact plain.elim
  | @answered g inj external _ w _ _ received =>
    have changes : Changes True c.world (c.world.receive g inj external).world := .receive g inj external trivial
    rw [received] at changes
    exact changes.trans (Changes.settlePanic _)
  | @entered g inj external _ w _ _ received =>
    have changes : Changes True c.world (c.world.receive g inj external).world := .receive g inj external trivial
    rw [received] at changes
    exact changes
  | @ended t _ ending _ _ _ _ => exact Changes.finish t ending trivial
  | @strayed t _ ending _ _ _ _ _ => exact Changes.finish t ending trivial

end Activation
