import Activation.World

/-! # Handles

A handle is one owned reference to a thing. A thing dies when its last handle is given back, and then
gives back what it held itself.

* `Handle`: what can be owned. `below` is the link from a dead frame to the frame under it.
* `World.giveBack`: gives back one handle and says which further handles that sets free.
* `World.drop`: gives back handles until nothing is left to give back. The order is depth first; the
  frames below a dead frame go one by one, each with its record, before the record of the frame. A
  count that has no smaller value starts a panic, and so may a destructor; the remaining handles are
  given back all the same.
-/

namespace Activation
set_option autoImplicit false

inductive Handle where
  | object (o : ObjId)
  | record (r : RecordId)
  | frame (f : FrameId)
  | below (f : FrameId)
  | generator (g : GenId)
deriving DecidableEq, Repr

/-- A panic breaks off the walk along the frames below a dead frame; those that are left are given back
like any other frame. -/
def Handle.detached : Handle → Handle
  | .below f => .frame f
  | h => h

/-! ## What things hold -/

def Object.held (x : Object) : List Handle :=
  match x.payload with
  | .generator g => [.generator g]
  | _ => []

def Record.held (x : Record) : List Handle := x.bound.map .object

def Frame.heldRecord (x : Frame) : List Handle := x.record.toList.map .record

def Frame.heldBelow (x : Frame) : List Handle := x.prev.toList.map .below

def Generator.held (x : Generator) : List Handle :=
  .frame x.frame ::
    match x.backing with
    | .compiled .. => []
    | .interpreted live => live.toList.map .record

namespace World

variable {ε : Type}

/-- The number of handles held inside the world. -/
def weight (w : World ε) : Nat :=
  w.objects.weigh (fun x => x.held.length) + w.records.weigh (fun x => x.held.length)
    + w.frames.weigh (fun x => x.heldRecord.length + x.heldBelow.length)
    + w.generators.weigh (fun x => x.held.length)

/-! ## Taking handles -/

/-- Reports a change of a count, if such reports are wanted. -/
def traceCount (w : World ε) (message : String) (count : Count) : World ε :=
  if w.dumpRefs then
    w.emit ⟨.trace, "umbra::object::refs", message,
      [("header", .address), ("refcnt", .text (toString count.val))]⟩
  else w

def setHeader (w : World ε) (o : ObjId) (h : Header) : World ε :=
  w.modifyObject o fun x => { x with header := h }

/-- Accounts for one retain that stores `next`. -/
def noteRetain (w : World ε) (next : Header) : World ε :=
  { w with refTotal := w.refTotal + 1 }.traceCount "incref" next.count

/-- Takes one more reference to an object. -/
def retain (w : World ε) (o : ObjId) : World ε :=
  match (w.objects.get? o).bind fun x => x.header.retain with
  | none => w
  | some next => (w.noteRetain next).setHeader o next

def holdRecord (w : World ε) (r : RecordId) : World ε :=
  w.modifyRecord r fun x => { x with owners := x.owners + 1 }

def holdFrame (w : World ε) (f : FrameId) : World ε :=
  w.modifyFrame f fun x => { x with owners := x.owners + 1 }

def holdGenerator (w : World ε) (g : GenId) : World ε :=
  w.modifyGenerator g fun x => { x with owners := x.owners + 1 }

/-! ## Giving handles back -/

/-- Accounts for one release that stores `next`. -/
def noteRelease (w : World ε) (next : Header) : World ε :=
  { w with refTotal := w.refTotal - 1 }.traceCount "decref" next.count

/-- Reports the death of an object whose type has a destructor that reports. -/
def noteDeath (w : World ε) (x : Object) (next : Header) : World ε :=
  if x.type.destructor = .reports then
    { w with deaths := w.deaths.push ⟨x.type.name, x.payload, next.count.val⟩ }
  else w

def eraseObject (w : World ε) (o : ObjId) : World ε := { w with objects := w.objects.erase o }

/-- An object dies. If its destructor panics, it is never freed, and neither is what it holds. -/
def bury (w : World ε) (o : ObjId) (x : Object) (next : Header) : World ε × List Handle :=
  match x.type.destructor with
  | .panics text => ((w.setHeader o next).panic (.destructor text), [])
  | _ => ((w.noteDeath x next).eraseObject o, x.held)

/-- Gives back one reference to an object. -/
def giveBackObject (w : World ε) (o : ObjId) : World ε × List Handle :=
  match w.objects.get? o with
  | none => (w, [])
  | some x =>
    match x.header.release with
    | .skipped => (w, [])
    | .overflow => (w.panic .countOverflow, [])
    | .negative next => (((w.noteRelease next).setHeader o next).sink next.count.val, [])
    | .stored next .alive => ((w.noteRelease next).setHeader o next, [])
    | .stored next .dead => (w.noteRelease next).bury o x next

def giveBackRecord (w : World ε) (r : RecordId) : World ε × List Handle :=
  let (records, last) := w.records.disown Record.owners (fun x => { x with owners := x.owners - 1 }) r
  ({ w with records }, last.elim [] Record.held)

/-- Gives back a handle on a frame; `order` arranges what a dead frame held. -/
def giveBackFrame (w : World ε) (f : FrameId) (order : Frame → List Handle) :
    World ε × List Handle :=
  let (frames, last) := w.frames.disown Frame.owners (fun x => { x with owners := x.owners - 1 }) f
  ({ w with frames }, last.elim [] order)

def giveBackGenerator (w : World ε) (g : GenId) : World ε × List Handle :=
  let (generators, last) :=
    w.generators.disown Generator.owners (fun x => { x with owners := x.owners - 1 }) g
  ({ w with generators }, last.elim [] Generator.held)

/-- Gives back one handle: the world afterwards, and the handles set free by a death, in the order
in which they are to be given back. -/
def giveBack (w : World ε) : Handle → World ε × List Handle
  | .object o => w.giveBackObject o
  | .record r => w.giveBackRecord r
  | .frame f => w.giveBackFrame f fun x => x.heldBelow ++ x.heldRecord
  | .below f => w.giveBackFrame f fun x => x.heldRecord ++ x.heldBelow
  | .generator g => w.giveBackGenerator g

/-! ## Every handle that is set free was held inside the world -/

@[simp] theorem weight_emit (w : World ε) (e : Event) : (w.emit e).weight = w.weight := rfl

@[simp] theorem weight_sink (w : World ε) (n : Int) : (w.sink n).weight = w.weight := by
  unfold sink; split <;> rfl

@[simp] theorem weight_panic (w : World ε) (p : Panic) : (w.panic p).weight = w.weight := by
  unfold panic; split <;> rfl

@[simp] theorem weight_traceCount (w : World ε) (m : String) (c : Count) :
    (w.traceCount m c).weight = w.weight := by
  unfold traceCount; split <;> rfl

@[simp] theorem weight_noteRelease (w : World ε) (h : Header) :
    (w.noteRelease h).weight = w.weight := by
  unfold noteRelease; rw [weight_traceCount]; rfl

@[simp] theorem weight_noteDeath (w : World ε) (x : Object) (h : Header) :
    (w.noteDeath x h).weight = w.weight := by
  unfold noteDeath; split <;> rfl

@[simp] theorem objects_traceCount (w : World ε) (m : String) (c : Count) :
    (w.traceCount m c).objects = w.objects := by
  unfold traceCount; split <;> rfl

@[simp] theorem objects_noteRelease (w : World ε) (h : Header) :
    (w.noteRelease h).objects = w.objects := by
  unfold noteRelease; rw [objects_traceCount]

@[simp] theorem objects_noteDeath (w : World ε) (x : Object) (h : Header) :
    (w.noteDeath x h).objects = w.objects := by
  unfold noteDeath; split <;> rfl

@[simp] theorem weight_setHeader (w : World ε) (o : ObjId) (h : Header) :
    (w.setHeader o h).weight = w.weight := by
  have := Store.weigh_modify (fun x : Object => x.held.length) w.objects o
    (fun x => { x with header := h }) (fun _ => rfl)
  simp only [weight, setHeader, modifyObject, this]

theorem weight_eraseObject (w : World ε) (o : ObjId) (x : Object) (found : w.objects.get? o = some x) :
    (w.eraseObject o).weight + x.held.length = w.weight := by
  have := Store.weigh_erase (fun x : Object => x.held.length) w.objects o x found
  simp only [weight, eraseObject]
  omega

theorem bury_of_observes (w : World ε) (o : ObjId) (x : Object) (next : Header)
    (observes : x.type.destructor.Observes) :
    w.bury o x next = ((w.noteDeath x next).eraseObject o, x.held) := by
  unfold bury
  split
  · next text panics =>
    rw [panics] at observes
    exact observes.elim
  · rfl

theorem weight_bury (w : World ε) (o : ObjId) (x : Object) (next : Header) (found : w.objects.get? o = some x) :
    (w.bury o x next).1.weight + (w.bury o x next).2.length = w.weight := by
  unfold bury
  split
  · simp
  · have := weight_eraseObject (w.noteDeath x next) o x (by simpa using found)
    simpa only [weight_noteDeath] using this

theorem weight_giveBackObject (w : World ε) (o : ObjId) :
    (w.giveBackObject o).1.weight + (w.giveBackObject o).2.length ≤ w.weight := by
  unfold giveBackObject
  split
  · simp
  · next x found =>
    split
    · simp
    · simp
    · simp
    · simp
    · next next _ =>
      have := weight_bury (w.noteRelease next) o x next (by simpa using found)
      rw [weight_noteRelease] at this
      exact Nat.le_of_eq this

theorem length_elim {α : Type} (order : α → List Handle) (last : Option α) :
    (last.elim [] order).length = Store.cellWeight (fun x => (order x).length) last := by
  cases last <;> rfl

theorem weight_giveBackRecord (w : World ε) (r : RecordId) :
    (w.giveBackRecord r).1.weight + (w.giveBackRecord r).2.length ≤ w.weight := by
  have := Store.weigh_disown (fun x : Record => x.held.length) w.records Record.owners
    (fun x => { x with owners := x.owners - 1 }) r fun _ => rfl
  simp only [giveBackRecord, weight, length_elim]
  omega

theorem weight_giveBackFrame (w : World ε) (f : FrameId) (order : Frame → List Handle)
    (all : ∀ x, (order x).length = x.heldRecord.length + x.heldBelow.length) :
    (w.giveBackFrame f order).1.weight + (w.giveBackFrame f order).2.length ≤ w.weight := by
  have := Store.weigh_disown (fun x : Frame => x.heldRecord.length + x.heldBelow.length) w.frames
    Frame.owners (fun x => { x with owners := x.owners - 1 }) f fun _ => rfl
  simp only [giveBackFrame, weight, length_elim, all]
  omega

theorem weight_giveBackGenerator (w : World ε) (g : GenId) :
    (w.giveBackGenerator g).1.weight + (w.giveBackGenerator g).2.length ≤ w.weight := by
  have := Store.weigh_disown (fun x : Generator => x.held.length) w.generators Generator.owners
    (fun x => { x with owners := x.owners - 1 }) g fun _ => rfl
  simp only [giveBackGenerator, weight, length_elim]
  omega

theorem weight_giveBack (w : World ε) (h : Handle) :
    (w.giveBack h).1.weight + (w.giveBack h).2.length ≤ w.weight := by
  cases h with
  | object o => exact weight_giveBackObject w o
  | record r => exact weight_giveBackRecord w r
  | frame f =>
    exact weight_giveBackFrame w f _ fun x => by simp only [List.length_append]; omega
  | below f => exact weight_giveBackFrame w f _ fun x => by simp only [List.length_append]
  | generator g => exact weight_giveBackGenerator w g

/-- What is left to give back after a step: a panic that starts with it detaches the handles. -/
def remaining (before after : Bool) (rest : List Handle) : List Handle :=
  if after && !before then rest.map Handle.detached else rest

theorem length_remaining (before after : Bool) (rest : List Handle) :
    (remaining before after rest).length = rest.length := by
  unfold remaining; split <;> simp

/-- Gives back the handles in order, each with everything its death sets free before the next. -/
def drop (w : World ε) (hs : List Handle) : World ε :=
  match hs with
  | [] => w
  | h :: rest =>
    let before := w.isUnwinding
    let next := w.giveBack h
    drop next.1 (next.2 ++ remaining before next.1.isUnwinding rest)
termination_by w.weight + hs.length
decreasing_by
  have := weight_giveBack w h
  simp only [List.length_append, List.length_cons, length_remaining]
  omega

/-- Gives back one reference to an object. -/
def release (w : World ε) (o : ObjId) : World ε := w.drop [.object o]

end World

end Activation
