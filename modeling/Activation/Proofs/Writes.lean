import Activation.Proofs.Changes
import Activation.Proofs.Completion

/-! # What is written where

Whether a context has begun is read off the position of its record, and whether its body is running off the state of
the record. Both can be written through a frame, through a context, or on the record itself. Up to the steps of a
program nothing here needs the handles to be accounted for.

* `Writes`: which states, positions and records may be written.
* `Keeps W w v`: from `w` to `v` nothing else is written. Things may die.
* `Step.keeps`: what each step of a program writes.
-/

namespace Activation
set_option autoImplicit false

variable {ε : Type}

structure Writes where
  /-- Records whose state may change. -/
  states : RecordId → Prop := fun _ => False
  /-- Records whose position may change. -/
  places : RecordId → Prop := fun _ => False
  /-- Frames whose own position may change. -/
  pointers : FrameId → Prop := fun _ => False
  /-- Frames that may get a record. -/
  bound : FrameId → Prop := fun _ => False

namespace Writes

structure KeepsRecord (W : Writes) (r : RecordId) (x y : Record) : Prop where
  state : W.states r ∨ y.state = x.state
  place : W.places r ∨ y.lastInstr = x.lastInstr

structure KeepsFrame (W : Writes) (f : FrameId) (x y : Frame) : Prop where
  pointer : W.pointers f ∨ y.ip = x.ip
  record : W.bound f ∨ y.record = x.record
  owner : y.owner = x.owner

/-- A new frame for compiled code is compact and has not begun. -/
structure FreshFrame (W : Writes) (f : FrameId) (y : Frame) : Prop where
  pointer : y.owner = .compiled → W.pointers f ∨ y.ip = -1
  record : y.owner = .compiled → W.bound f ∨ y.record = none

variable {W : Writes}

theorem KeepsRecord.refl (r : RecordId) (x : Record) : W.KeepsRecord r x x := ⟨.inr rfl, .inr rfl⟩

theorem KeepsRecord.trans (r : RecordId) (x y z : Record) (first : W.KeepsRecord r x y) (later : W.KeepsRecord r y z) :
    W.KeepsRecord r x z where
  state := by
    rcases first.state with written | same
    · exact .inl written
    · exact later.state.imp_right fun again => again.trans same
  place := by
    rcases first.place with written | same
    · exact .inl written
    · exact later.place.imp_right fun again => again.trans same

theorem KeepsFrame.refl (f : FrameId) (x : Frame) : W.KeepsFrame f x x := ⟨.inr rfl, .inr rfl, rfl⟩

theorem KeepsFrame.trans (f : FrameId) (x y z : Frame) (first : W.KeepsFrame f x y) (later : W.KeepsFrame f y z) :
    W.KeepsFrame f x z where
  pointer := by
    rcases first.pointer with written | same
    · exact .inl written
    · exact later.pointer.imp_right fun again => again.trans same
  record := by
    rcases first.record with written | same
    · exact .inl written
    · exact later.record.imp_right fun again => again.trans same
  owner := later.owner.trans first.owner

theorem FreshFrame.keeps (f : FrameId) (x y : Frame) (fresh : W.FreshFrame f x) (kept : W.KeepsFrame f x y) :
    W.FreshFrame f y where
  pointer compiled := by
    rcases fresh.pointer (kept.owner ▸ compiled) with written | unset
    · exact .inl written
    · exact kept.pointer.imp_right fun same => same.trans unset
  record compiled := by
    rcases fresh.record (kept.owner ▸ compiled) with written | compact
    · exact .inl written
    · exact kept.record.imp_right fun same => same.trans compact

end Writes

/-- The later world differs from the earlier one only where it may be written. -/
structure Keeps (W : Writes) (w v : World ε) : Prop where
  records : w.records.Evolves W.KeepsRecord (fun _ _ => True) v.records
  frames : w.frames.Evolves W.KeepsFrame W.FreshFrame v.frames

namespace Keeps

variable {W : Writes} {w v u : World ε}

theorem of_eq (records : v.records = w.records) (frames : v.frames = w.frames) : Keeps W w v where
  records := by
    rw [records]
    exact .refl Writes.KeepsRecord.refl
  frames := by
    rw [frames]
    exact .refl Writes.KeepsFrame.refl

theorem refl (w : World ε) : Keeps W w w := of_eq rfl rfl

theorem trans (first : Keeps W w v) (later : Keeps W v u) : Keeps W w u where
  records := first.records.trans Writes.KeepsRecord.trans (fun _ _ _ _ _ => trivial) later.records
  frames := first.frames.trans Writes.KeepsFrame.trans Writes.FreshFrame.keeps later.frames

/-! ## One store -/

theorem modifyRecord (r : RecordId) (f : Record → Record)
    (change : ∀ x, w.records.get? r = some x → W.KeepsRecord r x (f x)) : Keeps W w (w.modifyRecord r f) where
  records := .modify Writes.KeepsRecord.refl r f change
  frames := .refl Writes.KeepsFrame.refl

theorem modifyFrame (i : FrameId) (f : Frame → Frame)
    (change : ∀ x, w.frames.get? i = some x → W.KeepsFrame i x (f x)) : Keeps W w (w.modifyFrame i f) where
  records := .refl Writes.KeepsRecord.refl
  frames := .modify Writes.KeepsFrame.refl i f change

theorem modifyGenerator (g : GenId) (f : Generator → Generator) : Keeps W w (w.modifyGenerator g f) := of_eq rfl rfl

theorem addRecord (x : Record) : Keeps W w (w.addRecord x).2 where
  records := .insert Writes.KeepsRecord.refl x trivial
  frames := .refl Writes.KeepsFrame.refl

theorem addFrame (x : Frame) (new : W.FreshFrame w.frames.next x) : Keeps W w (w.addFrame x).2 where
  records := .refl Writes.KeepsRecord.refl
  frames := .insert Writes.KeepsFrame.refl x new

/-! ## Handles -/

theorem giveBack (h : Handle) : Keeps W w (w.giveBack h).1 := by
  have frames : ∀ f order, Keeps W w (w.giveBackFrame f order).1 := fun f order =>
    ⟨.refl Writes.KeepsRecord.refl, .disown Writes.KeepsFrame.refl f fun _ => ⟨.inr rfl, .inr rfl, rfl⟩⟩
  cases h with
  | object o =>
    obtain ⟨objects, total, events, deaths, fault, eq⟩ := w.giveBackObject_eq o
    rw [World.giveBack, eq]
    exact of_eq rfl rfl
  | record r =>
    exact ⟨.disown Writes.KeepsRecord.refl r fun _ => ⟨.inr rfl, .inr rfl⟩, .refl Writes.KeepsFrame.refl⟩
  | frame f => exact frames f _
  | below f => exact frames f _
  | generator g => exact of_eq rfl rfl

theorem drop (w : World ε) (hs : List Handle) : Keeps W w (w.drop hs) := by
  fun_induction World.drop w hs with
  | case1 w => exact refl w
  | case2 w h hs before next ih => exact (giveBack h).trans ih

theorem hold (h : Handle) : Keeps W w (w.hold h) := by
  cases h with
  | object o =>
    obtain ⟨objects, total, events, eq⟩ := w.retain_eq o
    rw [World.hold, eq]
    exact of_eq rfl rfl
  | record r => exact modifyRecord r _ fun _ _ => ⟨.inr rfl, .inr rfl⟩
  | frame f => exact modifyFrame f _ fun _ _ => ⟨.inr rfl, .inr rfl, rfl⟩
  | below f => exact modifyFrame f _ fun _ _ => ⟨.inr rfl, .inr rfl, rfl⟩
  | generator g => exact of_eq rfl rfl

theorem emit (e : Event) : Keeps W w (w.emit e) := of_eq rfl rfl

theorem setFault (x : Option Fault) : Keeps W w { w with fault := x } := of_eq rfl rfl

theorem panic (p : Panic) : Keeps W w (w.panic p) := by
  rw [World.panic_eq]
  exact setFault _

theorem catchPanic : Keeps W w w.catchPanic.2 := by
  rw [World.catchPanic_eq]
  exact setFault _

theorem settlePanic (result : Resumption) : Keeps W w (World.settlePanic result w).2 := by
  rw [World.settlePanic_snd]
  exact catchPanic

/-! ## Records -/

theorem setState (r : RecordId) (s : RecordState) (allowed : W.states r) : Keeps W w (w.setState r s) :=
  modifyRecord r _ fun _ _ => ⟨.inl allowed, .inr rfl⟩

theorem setLastInstr (r : RecordId) (ip : Int) (allowed : W.places r) : Keeps W w (w.setLastInstr r ip) :=
  modifyRecord r _ fun _ _ => ⟨.inr rfl, .inl allowed⟩

theorem slot (r : RecordId) (i : Nat) : Keeps W w (w.slot r i).2 := by
  unfold World.slot
  split
  · exact refl w
  · exact hold (.object _)

theorem setSlot (r : RecordId) (i : Nat) (o : ObjId) : Keeps W w (w.setSlot r i o) := by
  have filled : Keeps W w (w.modifyRecord r fun x => x.bind i o) :=
    modifyRecord r _ fun _ _ => ⟨.inr rfl, .inr rfl⟩
  exact filled.trans (drop _ _)

theorem clear (r : RecordId) (allowed : W.states r) : Keeps W w (w.clear r) := by
  have emptied : Keeps W w (w.modifyRecord r fun x => { x with slots := [] }) :=
    modifyRecord r _ fun _ _ => ⟨.inr rfl, .inr rfl⟩
  have released := emptied.trans (drop _ (w.record r).held)
  simp only [World.clear]
  refine released.trans ?_
  split
  · exact refl _
  · exact setState r _ allowed

/-! ## Frames and the stack -/

theorem setIp (f : FrameId) (ip : Int) (pointer : W.pointers f)
    (place : ∀ r, (w.frame f).record = some r → W.places r) : Keeps W w (w.setIp f ip) := by
  have moved : Keeps W w (w.modifyFrame f fun x => { x with ip := ip }) :=
    modifyFrame f _ fun _ _ => ⟨.inl pointer, .inr rfl, rfl⟩
  cases own : (w.frame f).record with
  | none =>
    have still : ((w.modifyFrame f fun x => { x with ip := ip }).frame f).record = none :=
      (World.frame_modifyFrame Frame.record w f f (fun x => { x with ip := ip }) fun _ => rfl).trans own
    simp only [World.setIp, still]
    exact moved
  | some r =>
    rw [World.setIp_of_record own]
    exact moved.trans (setLastInstr r ip (place r own))

theorem setFrameAwaiter (f : FrameId) (a : Option FrameId) : Keeps W w (w.setFrameAwaiter f a) :=
  modifyFrame f _ fun _ _ => ⟨.inr rfl, .inr rfl, rfl⟩

theorem bindRecord (f : FrameId) (r : RecordId) (bound : W.bound f) : Keeps W w (w.bindRecord f r).2 := by
  unfold World.bindRecord
  split
  · exact drop w _
  · exact modifyFrame f _ fun _ _ => ⟨.inr rfl, .inl bound, rfl⟩

theorem materialize (x : Record) (f : FrameId) (bound : W.bound f) :
    Keeps W w (w.materialize (.building x) f).2 := by
  simp only [World.materialize, Host.building]
  split
  · exact refl w
  · exact refl w
  · exact ((addRecord _).trans (emit _)).trans (modifyFrame f _ fun _ _ => ⟨.inr rfl, .inl bound, rfl⟩)

theorem push {f : FrameId} (pushed : w.push f = .ok v) : Keeps W w v := by
  unfold World.push at pushed
  split at pushed
  · cases pushed
  · split at pushed
    · cases pushed
    · cases pushed
      have linked : Keeps W (w.holdFrame f)
          ((w.holdFrame f).modifyFrame f fun x => { x with prev := w.stack.current }) :=
        modifyFrame f _ fun _ _ => ⟨.inr rfl, .inr rfl, rfl⟩
      exact ((hold (.frame f)).trans linked).trans (of_eq rfl rfl)

theorem pop : Keeps W w w.pop.2 := by
  unfold World.pop
  split
  · exact refl w
  · next f _ =>
    have unlinked : Keeps W w (w.modifyFrame f fun x => { x with prev := none }) :=
      modifyFrame f _ fun _ _ => ⟨.inr rfl, .inr rfl, rfl⟩
    exact unlinked.trans (of_eq rfl rfl)

theorem enter {f : FrameId} (entered : w.enter f = .ok v) : Keeps W w v := by
  unfold World.enter at entered
  cases pushed : w.push f with
  | error p =>
    rw [pushed] at entered
    cases entered
  | ok u =>
    rw [pushed] at entered
    cases entered
    exact (push pushed).trans (hold (.frame f))

theorem leave (f : FrameId) : Keeps W w (w.leave f) := by
  rw [World.leave_eq]
  refine trans ?_ (drop _ _)
  split
  · exact pop
  · exact pop.trans (panic _)

theorem reportWalk (r : Except WalkError Nat) : Keeps W w (w.reportWalk r) := by
  unfold World.reportWalk
  split
  · exact emit _
  · exact emit _
  · exact refl w

theorem findFirstArg (name : String) (skip : Nat) : Keeps W w (w.findFirstArg name skip).2 := by
  rcases w.findFirstArg_cases name skip with ⟨r, k, eq⟩ | ⟨k, -, eq⟩
  · rw [eq]
    exact (slot r 0).trans (reportWalk (.ok k))
  · rw [eq]
    exact reportWalk k

/-! ## Contexts -/

theorem linkAwaiter (g : GenId) (a : Option GenId) : Keeps W w (w.linkAwaiter g a) :=
  (setFrameAwaiter _ _).trans (modifyGenerator g _)

theorem addInterpretedFrame (r : RecordId) : Keeps W w (w.addInterpretedFrame r).2 := by
  refine addFrame _ ⟨?_, ?_⟩
  · intro compiled
    cases compiled
  · intro compiled
    cases compiled

theorem begin (g : GenId) (throwing : Bool) (pointer : W.pointers (w.generator g).frame)
    (place : ∀ r, (w.frame (w.generator g).frame).record = some r → W.places r)
    (state : ∀ r, (w.generator g).live = some r → W.states r) : Keeps W w (w.begin g throwing) := by
  have placed : Keeps W w
      (if w.lastInstr (w.generator g).frame < 0 then w.setIp (w.generator g).frame 0 else w) := by
    split
    · exact setIp _ _ pointer place
    · exact refl w
  simp only [World.begin]
  generalize (if w.lastInstr (w.generator g).frame < 0 then w.setIp (w.generator g).frame 0 else w) = v
    at placed ⊢
  refine placed.trans (trans ?_ (emit _))
  split
  · exact modifyGenerator g _
  · next r backing => exact setState r _ (state r (by rw [Generator.live, backing]))
  · exact refl _

theorem suspend (g : GenId) (state : ∀ r, (w.generator g).live = some r → W.states r) :
    Keeps W w (w.suspend g) := by
  have counted : Keeps W w (w.modifyGenerator g fun x => { x with yields := (w.generator g).yields + 1 }) :=
    modifyGenerator g _
  simp only [World.suspend]
  refine counted.trans (trans ?_ (emit _))
  split
  · exact modifyGenerator g _
  · next r backing => exact setState r _ (state r (by rw [Generator.live, backing]))
  · exact refl _

theorem vacate (g : GenId) (final : RecordState) (state : ∀ r, (w.generator g).live = some r → W.states r) :
    Keeps W w (w.vacate g final) := by
  unfold World.vacate
  split
  · exact modifyGenerator g _
  · exact refl w
  · next r backing =>
    have allowed : W.states r := state r (by rw [Generator.live, backing])
    have cleared : Keeps W w
        ((w.modifyGenerator g fun x => { x with backing := .interpreted none }).clear r) :=
      (modifyGenerator g _).trans (clear r allowed)
    simp only [World.retire]
    refine cleared.trans (trans ?_ (drop _ _))
    split
    · exact refl _
    · exact setState r _ allowed

theorem complete (g : GenId) (final : RecordState) (state : ∀ r, (w.generator g).live = some r → W.states r) :
    Keeps W w (w.complete g final) := by
  simp only [World.complete]
  refine (vacate g final state).trans ?_
  split
  · exact refl _
  · split
    · exact (linkAwaiter g none).trans (emit _)
    · exact emit _

theorem abandon (g : GenId) (state : ∀ r, (w.generator g).live = some r → W.states r) :
    Keeps W w (w.abandon g) := by
  have cleanUp : ∀ {v : World ε} {f : World ε → World ε}, Keeps W v (f v.catchPanic.2) → Keeps W v (v.cleanUp f) := by
    intro v f ran
    unfold World.cleanUp
    cases first : v.catchPanic with
    | mk p u =>
      rw [first] at ran
      cases p with
      | none => exact ran
      | some p =>
        have again := ran.trans (catchPanic (w := f u))
        simp only
        cases second : (f u).catchPanic with
        | mk q x =>
          rw [second] at again
          cases q with
          | none => exact again.trans (setFault _)
          | some q => exact again.trans (setFault _)
  refine (emit _).trans (cleanUp (catchPanic.trans (complete g .raised fun r live => state r ?_)))
  rw [World.catchPanic_eq] at live
  exact live

theorem settle (g : GenId) (closing : Bool) (ending : Ending)
    (state : ∀ r, (w.generator g).live = some r → W.states r) : Keeps W w (w.settle g closing ending).2 := by
  cases ending with
  | yields o =>
    simp only [World.settle]
    split
    · exact (suspend g state).trans (drop _ _)
    · exact suspend g state
  | returns o =>
    simp only [World.settle]
    split
    · exact (complete g _ state).trans (drop _ _)
    · exact complete g _ state
  | raises e =>
    simp only [World.settle]
    split
    · exact (complete g _ state).trans (drop _ _)
    · split
      · exact (complete g _ state).trans (drop _ _)
      · exact complete g _ state
  | panics p =>
    refine (panic p).trans (abandon g fun r live => state r ?_)
    rw [World.panic_eq] at live
    exact live

/-! ## Requests -/

theorem takeBody (g : GenId) (external : Option RecordId) (bound : W.bound (w.generator g).frame) :
    Keeps W w (w.takeBody g external) := by
  have taken : Keeps W w (w.modifyGenerator g fun x => { x with body := none }) := modifyGenerator g _
  cases external with
  | none => exact taken
  | some r =>
    have same : ((w.modifyGenerator g fun x => { x with body := none }).generator g).frame =
        (w.generator g).frame := World.generator_modifyGenerator Generator.frame w g g _ fun _ => rfl
    refine taken.trans (bindRecord _ r ?_)
    rw [same]
    exact bound

theorem startTurn (g : GenId) (body : BodyId) (inj : Injection)
    (state : ∀ r, (w.generator g).live = some r → W.states r) : Keeps W w (w.startTurn g body inj).world := by
  simp only [World.startTurn]
  split
  · next p _ =>
    refine ((panic p).trans (abandon g fun r live => state r ?_)).trans (drop _ _)
    rw [World.panic_eq] at live
    exact live
  · next entered => exact enter entered

theorem finish (t : Turn) (ending : Ending)
    (state : ∀ r, (w.generator t.context).live = some r → W.states r) : Keeps W w (w.finish t ending).2 := by
  refine trans ?_ (settlePanic _)
  cases sane : ending.isPanic with
  | true =>
    cases ending with
    | panics p =>
      simp only [World.conclude]
      refine ((panic p).trans (leave t.frame)).trans (abandon _ fun r live => state r ?_)
      have before := (World.steady_leave (w.panic p) t.frame).live id live
      rw [World.panic_eq] at before
      exact before
    | _ => cases sane
  | false =>
    rw [w.conclude_of_calm t sane]
    split
    · exact leave t.frame
    · refine ((leave t.frame).trans (modifyGenerator _ _)).trans (settle _ _ ending fun r live => state r ?_)
      have same : (((w.leave t.frame).modifyGenerator t.context fun x => { x with body := some t.body }).generator
          t.context).live = ((w.leave t.frame).generator t.context).live :=
        World.generator_modifyGenerator Generator.live _ _ _ _ fun _ => rfl
      rw [same] at live
      exact (World.steady_leave w t.frame).live id live

end Keeps

/-! ## Reading -/

namespace World

variable {w : World ε} {f : FrameId} {r : RecordId}

theorem lt_next_of_frame (has : w.Has (.frame f)) : f < w.frames.next := by
  obtain ⟨x, found⟩ := Option.isSome_iff_exists.mp has
  exact w.frames.lt_next found

theorem frame_modified (has : w.Has (.frame f)) (change : Frame → Frame) :
    (w.modifyFrame f change).frame f = change (w.frame f) := by
  obtain ⟨x, found⟩ := Option.isSome_iff_exists.mp has
  rw [frame_of_get? found]
  refine frame_of_get? ?_
  rw [modifyFrame, Store.get?_modify, if_pos rfl, found]
  rfl

theorem record_modified (has : w.Has (.record r)) (change : Record → Record) :
    (w.modifyRecord r change).record r = change (w.record r) := by
  obtain ⟨x, found⟩ := Option.isSome_iff_exists.mp has
  rw [record_of_get? found]
  refine record_of_get? ?_
  rw [modifyRecord, Store.get?_modify, if_pos rfl, found]
  rfl

end World

theorem Accounted.has_bound {w : World ε} {out : Multiset Handle} {f : FrameId} {r : RecordId} (acc : Accounted w out)
    (bound : (w.frame f).record = some r) : w.Has (.record r) :=
  acc.has_of_frame (World.get?_of_part Frame.record rfl bound)
    (by simp [Frame.held, Frame.heldRecord, bound])

namespace Keeps

variable {W V : Writes} {w v : World ε}

theorem record (keeps : Keeps W w v) {r : RecordId} (given : r < w.records.next) (has : v.Has (.record r)) :
    W.KeepsRecord r (w.record r) (v.record r) := by
  obtain ⟨y, found⟩ := Option.isSome_iff_exists.mp has
  obtain ⟨x, there, kept⟩ := keeps.records.old given found
  rw [World.record_of_get? there, World.record_of_get? found]
  exact kept

theorem frame (keeps : Keeps W w v) {f : FrameId} (given : f < w.frames.next) (has : v.Has (.frame f)) :
    W.KeepsFrame f (w.frame f) (v.frame f) := by
  obtain ⟨y, found⟩ := Option.isSome_iff_exists.mp has
  obtain ⟨x, there, kept⟩ := keeps.frames.old given found
  rw [World.frame_of_get? there, World.frame_of_get? found]
  exact kept

theorem newFrame (keeps : Keeps W w v) {f : FrameId} (late : w.frames.next ≤ f) (has : v.Has (.frame f)) :
    W.FreshFrame f (v.frame f) := by
  obtain ⟨y, found⟩ := Option.isSome_iff_exists.mp has
  rw [World.frame_of_get? found]
  rcases keeps.frames.origin f y found with ⟨x, there, -⟩ | ⟨-, new⟩
  · exact absurd (w.frames.lt_next there) (Nat.not_lt.mpr late)
  · exact new

/-- A frame keeps its position where neither the frame nor its record is written. -/
theorem lastInstr_eq {out rest : Multiset Handle} {f : FrameId} (keeps : Keeps W w v)
    (acc : Accounted w out) (acc' : Accounted v rest) (given : f < w.frames.next) (has : v.Has (.frame f))
    (pointer : ¬ W.pointers f) (bound : ¬ W.bound f)
    (place : ∀ r, (w.frame f).record = some r → ¬ W.places r) : v.lastInstr f = w.lastInstr f := by
  have kept := keeps.frame given has
  have record := kept.record.resolve_left bound
  unfold World.lastInstr
  rw [record]
  cases own : (w.frame f).record with
  | none => exact kept.pointer.resolve_left pointer
  | some r =>
    obtain ⟨x, found⟩ := Option.isSome_iff_exists.mp (acc.has_bound own)
    have there : v.Has (.record r) := acc'.has_bound (record.trans own)
    exact (keeps.record (w.records.lt_next found) there).place.resolve_left (place r own)

theorem mono (keeps : Keeps W w v) (states : ∀ r, W.states r → V.states r) (places : ∀ r, W.places r → V.places r)
    (pointers : ∀ f, W.pointers f → V.pointers f) (bound : ∀ f, W.bound f → V.bound f) : Keeps V w v where
  records := by
    refine ⟨keeps.records.next_le, fun r y found => ?_⟩
    rcases keeps.records.origin r y found with ⟨x, there, kept⟩ | new
    · exact .inl ⟨x, there, kept.state.imp_left (states r), kept.place.imp_left (places r)⟩
    · exact .inr new
  frames := by
    refine ⟨keeps.frames.next_le, fun f y found => ?_⟩
    rcases keeps.frames.origin f y found with ⟨x, there, kept⟩ | ⟨late, new⟩
    · exact .inl ⟨x, there, kept.pointer.imp_left (pointers f), kept.record.imp_left (bound f), kept.owner⟩
    · exact .inr ⟨late, fun compiled => (new.pointer compiled).imp_left (pointers f),
        fun compiled => (new.record compiled).imp_left (bound f)⟩

end Keeps

/-! ## Steps -/

def Op.writes (w : World ε) : Op → Writes
  | .clear r => { states := fun s => s = r }
  | .setState r _ => { states := fun s => s = r }
  | .setLastInstr r _ => { places := fun s => s = r }
  | .setIp f _ => { places := fun r => (w.frame f).record = some r, pointers := fun k => k = f }
  | .materialize f _ => { bound := fun k => k = f }
  | .bindRecord f _ => { bound := fun k => k = f }
  | _ => {}

theorem Op.keeps (op : Op) (w : World ε) : Keeps (op.writes w) w (op.run w).2 := by
  have made : ∀ (v : World ε) (x : Generator), Keeps {} v (v.addGenerator x).2 := fun v x => .of_eq rfl rfl
  cases op with
  | newObject type payload => exact .of_eq rfl rfl
  | newImmortal type payload => exact .of_eq rfl rfl
  | clone h => exact .hold h
  | drop h => exact .drop w _
  | markImmortal o => exact .of_eq rfl rfl
  | setCount o count => exact .of_eq rfl rfl
  | newRecord x => exact .addRecord x
  | setSlot r i o => exact .setSlot r i o
  | slot r i => exact .slot r i
  | clear r => exact .clear r rfl
  | setState r s => exact .setState r s rfl
  | setLastInstr r ip => exact .setLastInstr r ip rfl
  | newFrame code builder => exact .addFrame _ ⟨fun _ => .inr rfl, fun _ => .inr rfl⟩
  | newInterpretedFrame r => exact .addInterpretedFrame r
  | setIp f ip => exact .setIp f ip rfl fun _ own => own
  | setFrameAwaiter f a => exact .setFrameAwaiter f a
  | materialize f x => exact .materialize x f rfl
  | bindRecord f r => exact .bindRecord f r rfl
  | push f =>
    simp only [Op.run]
    split
    · next pushed => exact .push pushed
    · exact .refl w
  | pop => exact .pop
  | enter f =>
    simp only [Op.run]
    split
    · next entered => exact .enter entered
    · exact .refl w
  | leave f => exact (Keeps.leave f).trans .catchPanic
  | newCompiled kind code builder body =>
    have framed : Keeps {} w (w.addFrame (.compiled code builder)).2 :=
      .addFrame _ ⟨fun _ => .inr rfl, fun _ => .inr rfl⟩
    exact framed.trans (made _ _)
  | newInterpreted kind r body =>
    have framed : Keeps {} w ((w.holdRecord r).addInterpretedFrame r).2 :=
      (Keeps.hold (.record r)).trans (.addInterpretedFrame r)
    exact framed.trans (made _ _)
  | wrap g => exact .of_eq rfl rfl
  | setAwaiter g a =>
    simp only [Op.run, World.setAwaiter]
    split
    · exact .linkAwaiter g a
    · exact .refl w
  | findFirstArg name skip => exact .findFirstArg name skip

/-- What the begin of a turn writes: the position of the frame, the record that goes with it, and the state of the
context. -/
def Writes.asking (w : World ε) (g : GenId) (external : Option RecordId) : Writes where
  states r := (w.generator g).live = some r
  places r := (w.frame (w.generator g).frame).record = some r ∨ external = some r
  pointers f := f = (w.generator g).frame
  bound f := f = (w.generator g).frame

/-- Only the state of the context is written. -/
def Writes.settling (w : World ε) (g : GenId) : Writes := { states := fun r => (w.generator g).live = some r }

/-- A request without a turn panics only if its frame cannot be pushed. -/
def Writes.answering (w : World ε) (g : GenId) (external : Option RecordId) : Resumption → Writes
  | .done _ => .settling w g
  | .refused _ => {}
  | .panicked _ => .asking w g external

def Label.writes (w : World ε) : Label → Writes
  | .op call => call.writes w
  | .quiet => {}
  | .answered g _ external result => .answering w g external result
  | .entered t _ external => .asking w t.context external
  | .ended t _ _ => .settling w t.context
  | .strayed _ _ _ => {}

namespace World

/-- The context of a request, with its body out and its frame about to go on the stack. -/
abbrev prepared (w : World ε) (g : GenId) (inj : Injection) (external : Option RecordId) : World ε :=
  (w.takeBody g external).begin g inj.isThrowing

variable {w v : World ε} {g : GenId} {inj : Injection} {external : Option RecordId} {out : Multiset Handle}

/-- The external record is on the frame, or has been given back. -/
theorem accounted_takeBody (acc : Accounted w (↑(inj.offered external) + out)) (owned : .generator g ∈ out) :
    Accounted (w.takeBody g external) (↑inj.held + out) ∧ (w.takeBody g external).Has (.generator g) ∧
      ((w.takeBody g external).generator g).frame = (w.generator g).frame := by
  rw [inj.offered_add] at acc
  have owned' : .generator g ∈ (↑inj.held + out : Multiset Handle) := Multiset.mem_add.mpr (.inr owned)
  have frame := acc.has_frame (acc.has (Multiset.mem_add.mpr (.inr owned')))
  have taken : Moves (.request g) w _ (w.takeBody g external) (↑inj.held + out) :=
    .takeBody rfl frame fun _ _ => trivial
  have acc' := (taken.accounted acc).1
  have there := acc'.has owned'
  exact ⟨acc', there, (taken.steady.context id there).frame⟩

theorem live_prepared {r : RecordId} (live : ((w.prepared g inj external).generator g).live = some r) :
    (w.generator g).live = some r := by
  have begun : ((w.takeBody g external).generator g).live = some r :=
    (Moves.begin g inj.isThrowing trivial (fun _ _ => trivial) fun _ _ => trivial :
      Moves { Footprint.calm with births := False } (w.takeBody g external) 0 _ 0).steady.live id live
  have same : ((w.modifyGenerator g fun x => { x with body := none }).generator g).live = (w.generator g).live :=
    generator_modifyGenerator Generator.live w g g _ fun _ => rfl
  exact same ▸ (steady_takeBody w g external).live id begun

theorem keeps_prepared (acc : Accounted w (↑(inj.offered external) + out)) (owned : .generator g ∈ out) :
    Keeps (.asking w g external) w (w.prepared g inj external) := by
  obtain ⟨-, -, same⟩ := accounted_takeBody acc owned
  have frame := acc.has_frame (acc.has (Multiset.mem_add.mpr (.inr owned)))
  let F : Footprint := { contexts := fun k => k = g, attached := fun r => external = some r }
  have taken : Moves F w _ (w.takeBody g external) (↑inj.held + out) := .takeBody rfl frame fun _ given => given
  refine (Keeps.takeBody g external rfl).trans (.begin g _ same (fun r bound => ?_) fun r live => ?_)
  · rw [same] at bound
    exact taken.steady.frame_record bound
  · exact taken.steady.live id live

/-- A request that ends without a turn either leaves all positions alone, or gets stuck at its frame. -/
theorem keeps_answered {result : Resumption} (acc : Accounted w (↑(inj.offered external) + out))
    (owned : .generator g ∈ out) (calm : w.fault = none)
    (answered : w.receive g inj external = .answered result v) :
    (settlePanic result v).1.isPanic = false ∧
        Keeps (.answering w g external (settlePanic result v).1) w (settlePanic result v).2 ∨
      (settlePanic result v).1.isPanic = true ∧
        Keeps (.settling w g) (w.prepared g inj external) (settlePanic result v).2 := by
  have received := acc.received owned calm
  rw [answered] at received
  generalize admission : Admission.answered result v = a at received
  cases received with
  | @refused e judged hs all =>
    cases admission
    rw [← all] at acc
    rw [settlePanic_of_none (acc.fault_drop.trans calm)]
    exact .inl ⟨rfl, .drop w hs⟩
  | ignored judged =>
    cases admission
    rw [settlePanic_of_none (acc.fault_drop.trans calm)]
    exact .inl ⟨rfl, .drop w _⟩
  | finished judged =>
    cases admission
    have completed : Moves .calm w (↑(inj.offered external) + out) (w.complete g .cleared)
        (↑(inj.offered external) + out) := .complete g .cleared trivial fun _ _ => trivial
    have calm' : (w.complete g .cleared).fault = none := (acc.fault_complete g .cleared).trans calm
    rw [settlePanic_of_none (((completed.accounted acc).1.fault_drop).trans calm')]
    exact .inl ⟨rfl, (Keeps.complete g .cleared fun _ live => live).trans (.drop _ _)⟩
  | @entered body judged =>
    have small : Moves (.request g) w _ _ _ := .prepare inj (.request w g external) acc owned
    have acc' := (small.accounted acc).1
    obtain ⟨p, rfl, fault⟩ := acc'.fault_startTurn ((small.fault_eq acc id).trans calm) admission.symm
    have turned : Keeps (.settling w g) (w.prepared g inj external)
        ((w.prepared g inj external).startTurn g body inj).world := .startTurn g body inj fun _ => live_prepared
    rw [← admission] at turned
    rw [settlePanic_of_unwinding fault]
    exact .inr ⟨rfl, turned.trans (.setFault none)⟩

end World

namespace Step

variable {c d : Config ε} {l : Label} {g : GenId} {t : Turn} {inj : Injection} {external : Option RecordId}
  {ending : Ending} {result : Resumption}

theorem answered_keeps (sound : c.Sound) (step : Step c (.answered g inj external result) d) :
    result.isPanic = false ∧ Keeps (.answering c.world g external result) c.world d.world ∨
      result.isPanic = true ∧ Keeps (.settling c.world g) (c.world.prepared g inj external) d.world := by
  cases step with
  | answered takes received =>
    have acc := sound.accounted
    rw [c.outside_of_request takes] at acc
    exact World.keeps_answered acc (Multiset.mem_cons_self _ _) sound.calm received

theorem entered_keeps (sound : c.Sound) (step : Step c (.entered t inj external) d) :
    Keeps {} (c.world.prepared t.context inj external) d.world := by
  cases step with
  | @entered g inj external t w rest takes received =>
    have acc := sound.accounted
    rw [c.outside_of_request takes] at acc
    obtain ⟨body, -, turn, entered⟩ :=
      World.receive_entered acc (Multiset.mem_cons_self _ _) sound.calm received
    have context : t.context = g := by rw [turn]
    rw [context]
    exact .enter entered

theorem accounted_of_answered (sound : c.Sound) (step : Step c (.answered g inj external result) d) :
    ∃ out, .generator g ∈ out ∧ Accounted c.world (↑(inj.offered external) + out) := by
  cases step with
  | answered takes received =>
    have acc := sound.accounted
    rw [c.outside_of_request takes] at acc
    exact ⟨_, Multiset.mem_cons_self _ _, acc⟩

theorem accounted_of_entered (sound : c.Sound) (step : Step c (.entered t inj external) d) :
    ∃ out, .generator t.context ∈ out ∧ Accounted c.world (↑(inj.offered external) + out) := by
  cases step with
  | @entered g inj external t w rest takes received =>
    have acc := sound.accounted
    rw [c.outside_of_request takes] at acc
    obtain ⟨body, -, turn, -⟩ := World.receive_entered acc (Multiset.mem_cons_self _ _) sound.calm received
    have context : t.context = g := by rw [turn]
    rw [context]
    exact ⟨_, Multiset.mem_cons_self _ _, acc⟩

theorem strayed_keeps {W : Writes} (sound : c.Sound) (step : Step c (.strayed t ending result) d) :
    Keeps W c.world d.world := by
  cases step with
  | strayed innermost unbalanced calm takes =>
    have acc := sound.accounted
    rw [c.outside_of_turn innermost takes] at acc
    have fault := acc.fault_leave_strayed sound.calm unbalanced
    simp only [World.finish, c.world.conclude_of_calm t calm, World.isUnwinding_of_unwinding fault, if_true]
    exact (Keeps.leave t.frame).trans (.settlePanic _)

theorem keeps (sound : c.Sound) (step : Step c l d) : Keeps (l.writes c.world) c.world d.world := by
  cases l with
  | op call =>
    cases step with
    | op => exact call.keeps c.world
  | quiet =>
    cases step with
    | quiet same => exact .of_eq same.records same.frames
  | answered g inj external result =>
    obtain ⟨out, owned, acc⟩ := step.accounted_of_answered sound
    rcases step.answered_keeps sound with ⟨-, keeps⟩ | ⟨panics, keeps⟩
    · exact keeps
    · cases result with
      | panicked p =>
        refine (World.keeps_prepared acc owned).trans (keeps.mono (fun r live => live) ?_ ?_ ?_)
        all_goals exact fun _ never => never.elim
      | _ => cases panics
  | entered t inj external =>
    obtain ⟨out, owned, acc⟩ := step.accounted_of_entered sound
    refine (World.keeps_prepared acc owned).trans ((step.entered_keeps sound).mono ?_ ?_ ?_ ?_)
    all_goals exact fun _ never => never.elim
  | ended t ending result =>
    cases step with
    | ended => exact .finish t ending fun _ live => live
  | strayed t ending result => exact step.strayed_keeps sound

end Step

end Activation
