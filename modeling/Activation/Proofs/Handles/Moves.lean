import Activation.Proofs.Program
import Mathlib.Algebra.Order.Group.Multiset
import Mathlib.Tactic.Abel

/-! # Moves of handles

Every function of the library is a sequence of small moves. A move changes the world in one place and says
what that does to the handles outside the world: what goes into the world, and what comes out of it.

* `Footprint`: which contexts, records and frames a sequence of moves may change.
* `Move`, `Moves`: one move, and any number of them, each from a world with handles outside it to another.
* `Moves.drop`: giving handles back is a sequence of moves that change no context, record or frame but in
  who holds it.
* The other lemmas take the functions of the library apart, one by one.
-/

namespace Activation
set_option autoImplicit false

variable {ε : Type}

/-- The record of an interpreted context that has not finished. -/
def Generator.live (x : Generator) : Option RecordId :=
  match x.backing with
  | .compiled .. => none
  | .interpreted live => live

def Frame.held (x : Frame) : List Handle := x.heldRecord ++ x.heldBelow

theorem Generator.held_eq (x : Generator) : x.held = .frame x.frame :: x.live.toList.map .record := by
  unfold Generator.held Generator.live
  split <;> simp_all

/-- The objects that the library makes for contexts have no destructor. -/
theorem GeneratorKind.observes_type (kind : GeneratorKind) : kind.type.destructor.Observes := by
  cases kind <;> trivial

/-- The object is there for good. -/
def World.Immortal (w : World ε) (o : ObjId) : Prop :=
  ∃ x, w.objects.get? o = some x ∧ x.header.isImmortal = true

/-- What a sequence of moves may change besides who holds what. -/
structure Footprint where
  /-- Objects that may get new handles from old ones, or become immortal. -/
  retained : ObjId → Prop := fun _ => False
  /-- Contexts whose state or body may change. -/
  contexts : GenId → Prop := fun _ => False
  /-- Records whose state may change, or whose position may reach or leave the start. -/
  records : RecordId → Prop := fun _ => False
  /-- Records that a frame or a context may get. -/
  attached : RecordId → Prop := fun _ => False
  /-- Frames whose predecessor may change. -/
  links : FrameId → Prop := fun _ => False
  /-- Whether the stack may change. -/
  stack : Prop := False
  /-- Whether contexts may be made. -/
  births : Prop := False
  /-- Whether a panic may start or be caught. -/
  faults : Prop := False

/-! ## One move -/

inductive Move (F : Footprint) : World ε → Multiset Handle → World ε → Multiset Handle → Prop where
  | quiet {w v : World ε} {out : Multiset Handle} (same : w.Quiet v) : Move F w out v out
  | fault {w : World ε} {out : Multiset Handle} (allowed : F.faults) (x : Option Fault) :
      Move F w out { w with fault := x } out
  /-- A handle on a frame may count as one on the frame below another, and the other way round. -/
  | relabel {w : World ε} {out rest : Multiset Handle}
      (same : out.map Handle.detached = rest.map Handle.detached) : Move F w out w rest
  | giveBack {w : World ε} (h : Handle) {out : Multiset Handle} :
      Move F w (h ::ₘ out) (w.giveBack h).1 (↑(w.giveBack h).2 + out)
  | hold {w : World ε} {h : Handle} {out : Multiset Handle} (has : w.Has h)
      (allowed : ∀ o, h = .object o → F.retained o) : Move F w out (w.hold h) (h ::ₘ out)
  | addObject {w : World ε} {x : Object} {out : Multiset Handle}
      (born : x.header = .fresh ∧ x.type.destructor.Observes ∨ x.header = .immortal) :
      Move F w (↑x.held + out) (w.addObject x).2 (.object w.objects.next ::ₘ out)
  | markImmortal {w : World ε} (o : ObjId) {out : Multiset Handle} (allowed : F.retained o) :
      Move F w out (w.markImmortal o) out
  /-- Nobody counts the handles on an immortal object. -/
  | mint {w : World ε} {o : ObjId} {out : Multiset Handle} (immortal : w.Immortal o) :
      Move F w out w (.object o ::ₘ out)
  | addRecord {w : World ε} {x : Record} {out : Multiset Handle} (one : x.owners = 1) :
      Move F w (↑x.held + out) (w.addRecord x).2 (.record w.records.next ::ₘ out)
  | addFrame {w : World ε} {x : Frame} {out : Multiset Handle} (one : x.owners = 1)
      (attached : ∀ r, x.record = some r → F.attached r) (unlinked : x.prev = none) :
      Move F w (↑x.held + out) (w.addFrame x).2 (.frame w.frames.next ::ₘ out)
  | addGenerator {w : World ε} {x : Generator} {out : Multiset Handle} (allowed : F.births)
      (one : x.owners = 1) :
      Move F w (↑x.held + out) { w with generators := w.generators.insert x }
        (.generator w.generators.next ::ₘ out)
  | editRecord {w : World ε} {r : RecordId} (f : Record → Record) {x : Record}
      {out rest : Multiset Handle} (found : w.records.get? r = some x)
      (owners : (f x).owners = x.owners)
      (still : F.records r ∨ (f x).state = x.state ∧ ((f x).lastInstr = -1 ↔ x.lastInstr = -1))
      (even : ↑x.held + out = ↑(f x).held + rest) : Move F w out (w.modifyRecord r f) rest
  | editFrame {w : World ε} {i : FrameId} (f : Frame → Frame) {x : Frame} {out rest : Multiset Handle}
      (found : w.frames.get? i = some x) (owners : (f x).owners = x.owners)
      (attached : (f x).record = x.record ∨
        x.record = none ∧ ∀ r, (f x).record = some r → F.attached r)
      (link : F.links i ∨ (f x).prev = x.prev)
      (even : ↑x.held + out = ↑(f x).held + rest) : Move F w out (w.modifyFrame i f) rest
  | editGenerator {w : World ε} {g : GenId} (f : Generator → Generator) {x : Generator}
      {out rest : Multiset Handle} (found : w.generators.get? g = some x)
      (owners : (f x).owners = x.owners) (kind : (f x).kind = x.kind) (frame : (f x).frame = x.frame)
      (still : F.contexts g ∨
        (f x).backing = x.backing ∧ (f x).body = x.body ∧ (f x).yields = x.yields)
      (live : (f x).live = x.live ∨ (f x).live = none)
      (even : ↑x.held + out = ↑(f x).held + rest) : Move F w out (w.modifyGenerator g f) rest
  | setStack {w : World ε} {s : Stack} {out rest : Multiset Handle} (allowed : F.stack)
      (even : ↑w.stack.held + out = ↑s.held + rest) : Move F w out (w.setStack s) rest

/-- Any number of moves. -/
inductive Moves (F : Footprint) (w : World ε) (out : Multiset Handle) :
    World ε → Multiset Handle → Prop where
  | refl : Moves F w out w out
  | tail {v u : World ε} {mid rest : Multiset Handle} (init : Moves F w out v mid)
      (last : Move F v mid u rest) : Moves F w out u rest

namespace Moves

variable {F : Footprint} {w v u : World ε} {out mid rest : Multiset Handle}

theorem one (move : Move F w out v rest) : Moves F w out v rest := Moves.tail .refl move

theorem trans (first : Moves F w out v mid) (later : Moves F v mid u rest) : Moves F w out u rest := by
  induction later with
  | refl => exact first
  | tail _ last ih => exact Moves.tail ih last

theorem quiet (same : w.Quiet v) : Moves F w out v out := one (.quiet same)

theorem relabel (same : out.map Handle.detached = rest.map Handle.detached) : Moves F w out w rest :=
  one (.relabel same)

theorem cast {a b : Multiset Handle} (moves : Moves F w a v b) (start : out = a) (stop : b = rest) :
    Moves F w out v rest := by
  rw [start, ← stop]
  exact moves

end Moves

/-! ## Handles on the outside -/

theorem World.Quiet.emit (w : World ε) (e : Event) : w.Quiet (w.emit e) :=
  ⟨by rfl, by rfl, by rfl, by rfl, by rfl, by rfl, by rfl⟩

namespace Moves

variable {F : Footprint} {w v u : World ε} {out mid rest : Multiset Handle}

theorem emit (e : Event) : Moves F w out (w.emit e) out := quiet (.emit w e)

theorem hold {h : Handle} (has : w.Has h) (allowed : ∀ o, h = .object o → F.retained o) :
    Moves F w out (w.hold h) (h ::ₘ out) := one (.hold has allowed)

/-! ## Giving handles back -/

theorem remaining (out : Multiset Handle) (before after : Bool) (hs : List Handle) :
    Moves F w (↑hs + out) w (↑(World.remaining before after hs) + out) := by
  unfold World.remaining
  split
  · apply relabel
    have idem : ∀ h : Handle, h.detached.detached = h.detached := fun h => by cases h <;> rfl
    simp only [Multiset.map_add, Multiset.map_coe, List.map_map]
    congr 3
    funext h
    exact (idem h).symm
  · exact .refl

theorem drop (w : World ε) (hs : List Handle) : Moves F w (↑hs + out) (w.drop hs) out := by
  fun_induction World.drop w hs with
  | case1 w => exact Moves.refl.cast (by simp) rfl
  | case2 w h hs before next ih =>
    -- what the first handle sets free goes in front of the rest, which a panic may relabel
    have given : Moves F w (↑(h :: hs) + out) next.1 (↑next.2 + (↑hs + out)) :=
      (one (.giveBack h)).cast (by simp [← Multiset.cons_coe]) rfl
    have kept : Moves F next.1 (↑next.2 + (↑hs + out)) next.1
        (↑next.2 + (↑(World.remaining before next.1.isUnwinding hs) + out)) := by
      refine (remaining (↑next.2 + out) before next.1.isUnwinding hs).cast ?_ ?_
      · exact add_left_comm _ _ _
      · exact add_left_comm _ _ _
    exact (given.trans kept).trans (ih.cast (by simp [← Multiset.coe_add, add_assoc]) rfl)

theorem dropOne (w : World ε) (h : Handle) : Moves F w (h ::ₘ out) (w.drop [h]) out :=
  (drop w [h]).cast (by simp) rfl

theorem release (w : World ε) (o : ObjId) : Moves F w (.object o ::ₘ out) (w.release o) out :=
  dropOne w (.object o)

/-! ## Changes in one place -/

/-- A change of a record that leaves its slots alone. -/
theorem editRecord (r : RecordId) (f : Record → Record) (owners : ∀ x, (f x).owners = x.owners)
    (slots : ∀ x, (f x).slots = x.slots)
    (still : ∀ x, w.records.get? r = some x →
      F.records r ∨ (f x).state = x.state ∧ ((f x).lastInstr = -1 ↔ x.lastInstr = -1)) :
    Moves F w out (w.modifyRecord r f) out := by
  cases found : w.records.get? r with
  | none =>
    rw [show w.modifyRecord r f = w by simp [World.modifyRecord, Store.modify_of_none _ f found]]
    exact .refl
  | some x =>
    have held : (f x).held = x.held := by simp only [Record.held, Record.bound, slots]
    exact one (.editRecord f found (owners x) (still x found) (by rw [held]))

theorem editFrame (i : FrameId) (f : Frame → Frame) (owners : ∀ x, (f x).owners = x.owners)
    (record : ∀ x, (f x).record = x.record) (prev : ∀ x, (f x).prev = x.prev) :
    Moves F w out (w.modifyFrame i f) out := by
  cases found : w.frames.get? i with
  | none =>
    rw [show w.modifyFrame i f = w by simp [World.modifyFrame, Store.modify_of_none _ f found]]
    exact .refl
  | some x =>
    have held : (f x).held = x.held := by
      simp only [Frame.held, Frame.heldRecord, Frame.heldBelow, record, prev]
    exact one (.editFrame f found (owners x) (.inl (record x)) (.inr (prev x)) (by rw [held]))

theorem editGenerator (g : GenId) (f : Generator → Generator) (owners : ∀ x, (f x).owners = x.owners)
    (kind : ∀ x, (f x).kind = x.kind) (frame : ∀ x, (f x).frame = x.frame)
    (live : ∀ x, w.generators.get? g = some x → (f x).live = x.live)
    (still : F.contexts g ∨
      ∀ x, (f x).backing = x.backing ∧ (f x).body = x.body ∧ (f x).yields = x.yields) :
    Moves F w out (w.modifyGenerator g f) out := by
  cases found : w.generators.get? g with
  | none =>
    rw [show w.modifyGenerator g f = w by simp [World.modifyGenerator, Store.modify_of_none _ f found]]
    exact .refl
  | some x =>
    have held : (f x).held = x.held := by simp only [Generator.held_eq, frame, live x found]
    exact one (.editGenerator f found (owners x) (kind x) (frame x) (still.imp_right fun same => same x)
      (.inl (live x found)) (by rw [held]))

/-! ## Objects and records -/

theorem newObject (type : TypeInfo) (payload : Payload) (observes : type.destructor.Observes) :
    Moves F w (↑(Object.held ⟨.fresh, type, payload⟩) + out) (w.newObject type payload).2
      (.object (w.newObject type payload).1 ::ₘ out) := by
  have count : w.Quiet { w with refTotal := w.refTotal + 1 } :=
    ⟨by rfl, by rfl, by rfl, by rfl, by rfl, by rfl, by rfl⟩
  exact (quiet count).trans (one (.addObject (.inl ⟨rfl, observes⟩)))

theorem newImmortal (type : TypeInfo) (payload : Payload) :
    Moves F w (↑(Object.held ⟨.immortal, type, payload⟩) + out) (w.newImmortal type payload).2
      (.object (w.newImmortal type payload).1 ::ₘ out) := one (.addObject (.inr rfl))

theorem wrap (g : GenId) :
    Moves F w (.generator g ::ₘ out) (w.wrap g).2 (.object (w.wrap g).1 ::ₘ out) :=
  (newObject _ (.generator g) (w.generator g).kind.observes_type).cast (by simp [Object.held]) rfl

theorem setState (r : RecordId) (s : RecordState) (allowed : F.records r) :
    Moves F w out (w.setState r s) out :=
  editRecord r _ (fun _ => rfl) (fun _ => rfl) fun _ _ => .inl allowed

theorem setLastInstr (r : RecordId) (ip : Int)
    (allowed : F.records r ∨ (ip = -1 ↔ (w.record r).lastInstr = -1)) :
    Moves F w out (w.setLastInstr r ip) out := by
  refine editRecord r _ (fun _ => rfl) (fun _ => rfl) fun x found => ?_
  have here : w.record r = x := by simp [World.record, found]
  rw [here] at allowed
  exact allowed.imp_right fun same => ⟨rfl, same⟩

theorem clear (r : RecordId) (allowed : F.records r) : Moves F w out (w.clear r) out := by
  have emptied : Moves F w out (w.modifyRecord r fun x => { x with slots := [] })
      (↑(w.record r).held + out) := by
    cases found : w.records.get? r with
    | none =>
      have here : w.record r = .absent := by simp [World.record, found]
      rw [show w.modifyRecord r (fun x => { x with slots := [] }) = w by
        simp [World.modifyRecord, Store.modify_of_none _ _ found], here]
      exact Moves.refl.cast rfl (by simp [Record.held, Record.bound, Record.absent])
    | some x =>
      have here : w.record r = x := by simp [World.record, found]
      rw [here]
      exact one (.editRecord _ found rfl (.inl allowed) (by simp [Record.held, Record.bound]))
  refine emptied.trans ((drop _ _).trans ?_)
  simp only [World.clear]
  split
  · exact .refl
  · exact setState r .cleared allowed

end Moves

/-- Filling one of several places lets out what was there. -/
theorem filterMap_set {l : List (Option ObjId)} {i : Nat} (inside : i < l.length) (o : ObjId) :
    ((l.filterMap id : List ObjId) : Multiset ObjId) + {o} =
      ↑((l.set i (some o)).filterMap id) + ↑((l[i]?).join.toList) := by
  induction l generalizing i with
  | nil => simp at inside
  | cons c l ih =>
    cases i with
    | zero =>
      cases c with
      | none => simp [add_comm]
      | some p =>
        simp only [List.filterMap_cons, id_eq, List.set_cons_zero, List.getElem?_cons_zero,
          Option.join_some, Option.toList_some, ← Multiset.cons_coe, Multiset.coe_nil]
        rw [← Multiset.singleton_add, ← Multiset.singleton_add, ← Multiset.singleton_add]
        abel
    | succ k =>
      have further : k < l.length := by simpa using inside
      cases c with
      | none => simpa using ih further
      | some p =>
        show ((p :: l.filterMap id : List ObjId) : Multiset ObjId) + {o} =
          ↑(p :: (l.set k (some o)).filterMap id) + ↑((l[k]?).join.toList)
        rw [← Multiset.cons_coe, ← Multiset.cons_coe, Multiset.cons_add, Multiset.cons_add, ih further]

/-- Binding a slot puts one object in and lets the previous one out. -/
theorem Record.held_bind (x : Record) (i : Nat) (o : ObjId) :
    (x.held : Multiset Handle) + {.object o} =
      ↑(x.bind i o).held + ↑((x.slot i).toList.map Handle.object) := by
  -- a record grows to the slot first, by slots that are not bound
  have grown : ((x.slots ++ List.replicate (i + 1 - x.slots.length) none).filterMap id) =
      x.slots.filterMap id := by simp [List.filterMap_append]
  have found : ((x.slots ++ List.replicate (i + 1 - x.slots.length) none)[i]?).join = x.slot i := by
    unfold Record.slot
    by_cases short : i < x.slots.length
    · rw [List.getElem?_append_left short]
    · rw [List.getElem?_append_right (by omega), List.getElem?_replicate]
      have beyond : x.slots[i]? = none := List.getElem?_eq_none (by omega)
      rw [beyond]
      split <;> rfl
  have inside : i < (x.slots ++ List.replicate (i + 1 - x.slots.length) none).length := by
    rw [List.length_append, List.length_replicate]
    omega
  have exchanged := filterMap_set inside o
  rw [grown, found] at exchanged
  have exchanged := congrArg (Multiset.map Handle.object) exchanged
  simpa [Record.held, Record.bound, Record.bind] using exchanged

namespace Moves

variable {F : Footprint} {w v u : World ε} {out mid rest : Multiset Handle}

theorem setSlot (r : RecordId) (i : Nat) (o : ObjId) (has : w.Has (.record r)) :
    Moves F w (.object o ::ₘ out) (w.setSlot r i o) out := by
  obtain ⟨x, found⟩ := Option.isSome_iff_exists.mp has
  have here : w.record r = x := by simp [World.record, found]
  have bound : Moves F w (.object o ::ₘ out) (w.modifyRecord r fun x => x.bind i o)
      (↑((x.slot i).toList.map Handle.object) + out) := by
    refine one (.editRecord _ found rfl (.inr ⟨rfl, Iff.rfl⟩) ?_)
    rw [← Multiset.singleton_add, ← add_assoc, ← add_assoc, Record.held_bind]
  unfold World.setSlot
  rw [here]
  exact bound.trans (drop _ _)

theorem slot (r : RecordId) (i : Nat)
    (has : ∀ o, (w.record r).slot i = some o → w.Has (.object o) ∧ F.retained o) :
    Moves F w out (w.slot r i).2 (↑((w.slot r i).1.toList.map Handle.object) + out) := by
  unfold World.slot
  split
  · exact Moves.refl.cast rfl (by simp)
  · next o bound =>
    refine (Moves.hold (has o bound).1 fun p eq => ?_).cast rfl (by simp)
    exact Handle.object.inj eq ▸ (has o bound).2

end Moves

end Activation
