import Activation.Proofs.Handles.Moves

/-! # What moves leave alone

* `Store.Evolves keeps fresh s t`: every value of `t` is a value of `s` up to `keeps`, or new and `fresh`.
* `Steady F w v`: contexts, records, frames and the stack are the same in `v` as in `w`, as far as the
  footprint `F` does not allow them to change. Things may die.
* `Moves.steady`: moves keep to their footprint.
-/

namespace Activation
set_option autoImplicit false

/-! ## Stores -/

/-- Every value of the later store was there before, up to `keeps`, or it is new. Values may be erased. -/
structure Store.Evolves {α : Type} (keeps : Nat → α → α → Prop) (fresh : Nat → α → Prop)
    (s t : Store α) : Prop where
  next_le : s.next ≤ t.next
  origin : ∀ i y, t.get? i = some y →
    (∃ x, s.get? i = some x ∧ keeps i x y) ∨ s.next ≤ i ∧ fresh i y

namespace Store.Evolves

variable {α : Type} {keeps : Nat → α → α → Prop} {fresh : Nat → α → Prop} {s t u : Store α}

theorem refl (same : ∀ i x, keeps i x x) : Evolves keeps fresh s s :=
  ⟨Nat.le_refl _, fun i y found => .inl ⟨y, found, same i y⟩⟩

theorem trans (chain : ∀ i x y z, keeps i x y → keeps i y z → keeps i x z)
    (still : ∀ i x y, fresh i x → keeps i x y → fresh i y) (first : Evolves keeps fresh s t)
    (later : Evolves keeps fresh t u) : Evolves keeps fresh s u := by
  refine ⟨first.next_le.trans later.next_le, fun i z found => ?_⟩
  rcases later.origin i z found with ⟨y, between, kept⟩ | ⟨late, new⟩
  · rcases first.origin i y between with ⟨x, there, held⟩ | ⟨late, new⟩
    · exact .inl ⟨x, there, chain i x y z held kept⟩
    · exact .inr ⟨late, still i y z new kept⟩
  · exact .inr ⟨first.next_le.trans late, new⟩

theorem modify (same : ∀ i x, keeps i x x) (i : Nat) (f : α → α)
    (change : ∀ x, s.get? i = some x → keeps i x (f x)) : Evolves keeps fresh s (s.modify i f) := by
  refine ⟨by rw [next_modify], fun j y found => .inl ?_⟩
  rw [get?_modify] at found
  split at found
  · next eq =>
    subst eq
    obtain ⟨x, there, rfl⟩ := Option.map_eq_some_iff.mp found
    exact ⟨x, there, change x there⟩
  · exact ⟨y, found, same j y⟩

theorem insert (same : ∀ i x, keeps i x x) (x : α) (new : fresh s.next x) :
    Evolves keeps fresh s (s.insert x) := by
  refine ⟨by rw [next_insert]; exact Nat.le_succ _, fun j y found => ?_⟩
  rw [get?_insert] at found
  split at found
  · next eq =>
    cases found
    exact .inr ⟨Nat.le_of_eq eq.symm, eq ▸ new⟩
  · exact .inl ⟨y, found, same j y⟩

theorem erase (same : ∀ i x, keeps i x x) (i : Nat) : Evolves keeps fresh s (s.erase i) := by
  refine ⟨by rw [next_erase], fun j y found => .inl ?_⟩
  rw [get?_erase] at found
  split at found
  · cases found
  · exact ⟨y, found, same j y⟩

theorem disown (same : ∀ i x, keeps i x x) {owners : α → Nat} {less : α → α} (i : Nat)
    (change : ∀ x, keeps i x (less x)) : Evolves keeps fresh s (s.disown owners less i).1 := by
  unfold Store.disown
  split
  · exact refl same
  · split
    · exact erase same i
    · exact modify same i less fun x _ => change x

theorem old (evolved : Evolves keeps fresh s t) {i : Nat} {y : α} (given : i < s.next)
    (found : t.get? i = some y) : ∃ x, s.get? i = some x ∧ keeps i x y := by
  rcases evolved.origin i y found with was | ⟨late, -⟩
  · exact was
  · exact absurd late (Nat.not_le.mpr given)

end Store.Evolves

/-! ## Worlds -/

namespace Footprint

structure KeepsContext (F : Footprint) (g : GenId) (x y : Generator) : Prop where
  kind : y.kind = x.kind
  frame : y.frame = x.frame
  live : y.live = x.live ∨ y.live = none
  still : F.contexts g ∨ y.backing = x.backing ∧ y.body = x.body ∧ y.yields = x.yields

/-- A record keeps its state, and whether it is at the start. -/
def KeepsRecord (F : Footprint) (r : RecordId) (x y : Record) : Prop :=
  F.records r ∨ y.state = x.state ∧ (y.lastInstr = -1 ↔ x.lastInstr = -1)

/-- A frame that has a record keeps it. -/
structure KeepsFrame (F : Footprint) (f : FrameId) (x y : Frame) : Prop where
  record : y.record = x.record ∨ x.record = none ∧ ∀ r, y.record = some r → F.attached r
  prev : F.links f ∨ y.prev = x.prev

structure FreshFrame (F : Footprint) (f : FrameId) (y : Frame) : Prop where
  record : ∀ r, y.record = some r → F.attached r
  prev : F.links f ∨ y.prev = none

variable {F : Footprint}

theorem KeepsContext.refl (g : GenId) (x : Generator) : F.KeepsContext g x x :=
  ⟨rfl, rfl, .inl rfl, .inr ⟨rfl, rfl, rfl⟩⟩

theorem KeepsContext.trans (g : GenId) (x y z : Generator) (first : F.KeepsContext g x y)
    (later : F.KeepsContext g y z) : F.KeepsContext g x z where
  kind := later.kind.trans first.kind
  frame := later.frame.trans first.frame
  live := by
    rcases later.live with same | same
    · rw [same]; exact first.live
    · exact .inr same
  still := by
    rcases first.still with listed | ⟨backing, body, yields⟩
    · exact .inl listed
    · exact later.still.imp_right fun ⟨backing', body', yields'⟩ =>
        ⟨backing'.trans backing, body'.trans body, yields'.trans yields⟩

theorem KeepsRecord.refl (r : RecordId) (x : Record) : F.KeepsRecord r x x := .inr ⟨rfl, Iff.rfl⟩

theorem KeepsRecord.trans (r : RecordId) (x y z : Record) (first : F.KeepsRecord r x y)
    (later : F.KeepsRecord r y z) : F.KeepsRecord r x z := by
  rcases first with listed | ⟨same, iff⟩
  · exact .inl listed
  · exact later.imp_right fun ⟨same', iff'⟩ => ⟨same'.trans same, iff'.trans iff⟩

theorem KeepsFrame.refl (f : FrameId) (x : Frame) : F.KeepsFrame f x x := ⟨.inl rfl, .inr rfl⟩

theorem KeepsFrame.trans (f : FrameId) (x y z : Frame) (first : F.KeepsFrame f x y)
    (later : F.KeepsFrame f y z) : F.KeepsFrame f x z where
  record := by
    rcases later.record with same | ⟨compact, attached⟩
    · rw [same]; exact first.record
    · rcases first.record with before | ⟨before, -⟩
      · exact .inr ⟨before.symm.trans compact, attached⟩
      · exact .inr ⟨before, attached⟩
  prev := by
    rcases first.prev with listed | linked
    · exact .inl listed
    · exact later.prev.imp_right fun linked' => linked'.trans linked

theorem FreshFrame.keeps (f : FrameId) (x y : Frame) (born : F.FreshFrame f x) (kept : F.KeepsFrame f x y) :
    F.FreshFrame f y where
  record := by
    rcases kept.record with same | ⟨-, attached⟩
    · rw [same]; exact born.record
    · exact attached
  prev := by
    rcases born.prev with listed | linked
    · exact .inl listed
    · exact kept.prev.imp_right fun linked' => linked'.trans linked

end Footprint

variable {ε : Type}

/-- The later world differs from the earlier one only where the footprint allows it. -/
structure Steady (F : Footprint) (w v : World ε) : Prop where
  generators : w.generators.Evolves F.KeepsContext (fun _ _ => F.births) v.generators
  records : w.records.Evolves F.KeepsRecord (fun _ _ => True) v.records
  frames : w.frames.Evolves F.KeepsFrame F.FreshFrame v.frames
  stack : F.stack ∨ v.stack = w.stack

namespace Steady

variable {F : Footprint} {w v u : World ε}

theorem of_eq (generators : v.generators = w.generators) (records : v.records = w.records)
    (frames : v.frames = w.frames) (stack : v.stack = w.stack) : Steady F w v where
  generators := by rw [generators]; exact .refl Footprint.KeepsContext.refl
  records := by rw [records]; exact .refl Footprint.KeepsRecord.refl
  frames := by rw [frames]; exact .refl Footprint.KeepsFrame.refl
  stack := .inr stack

theorem refl (w : World ε) : Steady F w w := of_eq rfl rfl rfl rfl

theorem trans (first : Steady F w v) (later : Steady F v u) : Steady F w u where
  generators := first.generators.trans Footprint.KeepsContext.trans (fun _ _ _ born _ => born) later.generators
  records := first.records.trans Footprint.KeepsRecord.trans (fun _ _ _ _ _ => trivial) later.records
  frames := first.frames.trans Footprint.KeepsFrame.trans Footprint.FreshFrame.keeps later.frames
  stack := by
    rcases first.stack with same | same
    · exact .inl same
    · exact later.stack.imp_right fun same' => same'.trans same

/-! ## One store -/

theorem ofGenerators {s : Store Generator}
    (evolves : w.generators.Evolves F.KeepsContext (fun _ _ => F.births) s) :
    Steady F w { w with generators := s } where
  generators := evolves
  records := .refl Footprint.KeepsRecord.refl
  frames := .refl Footprint.KeepsFrame.refl
  stack := .inr rfl

theorem ofRecords {s : Store Record} (evolves : w.records.Evolves F.KeepsRecord (fun _ _ => True) s) :
    Steady F w { w with records := s } where
  generators := .refl Footprint.KeepsContext.refl
  records := evolves
  frames := .refl Footprint.KeepsFrame.refl
  stack := .inr rfl

theorem ofFrames {s : Store Frame} (evolves : w.frames.Evolves F.KeepsFrame F.FreshFrame s) :
    Steady F w { w with frames := s } where
  generators := .refl Footprint.KeepsContext.refl
  records := .refl Footprint.KeepsRecord.refl
  frames := evolves
  stack := .inr rfl

theorem modifyGenerator (g : GenId) (f : Generator → Generator)
    (change : ∀ x, w.generators.get? g = some x → F.KeepsContext g x (f x)) :
    Steady F w (w.modifyGenerator g f) :=
  ofGenerators (.modify Footprint.KeepsContext.refl g f change)

theorem modifyRecord (r : RecordId) (f : Record → Record)
    (change : ∀ x, w.records.get? r = some x → F.KeepsRecord r x (f x)) :
    Steady F w (w.modifyRecord r f) :=
  ofRecords (.modify Footprint.KeepsRecord.refl r f change)

theorem modifyFrame (i : FrameId) (f : Frame → Frame)
    (change : ∀ x, w.frames.get? i = some x → F.KeepsFrame i x (f x)) :
    Steady F w (w.modifyFrame i f) :=
  ofFrames (.modify Footprint.KeepsFrame.refl i f change)

/-! ## Handles -/

theorem modifyObject (o : ObjId) (f : Object → Object) : Steady F w (w.modifyObject o f) :=
  of_eq rfl rfl rfl rfl

theorem traceCount (m : String) (c : Count) : Steady F w (w.traceCount m c) := by
  unfold World.traceCount
  split <;> exact of_eq rfl rfl rfl rfl

theorem noteRetain (h : Header) : Steady F w (w.noteRetain h) :=
  (of_eq rfl rfl rfl rfl : Steady F w { w with refTotal := w.refTotal + 1 }).trans (traceCount _ _)

theorem noteRelease (h : Header) : Steady F w (w.noteRelease h) :=
  (of_eq rfl rfl rfl rfl : Steady F w { w with refTotal := w.refTotal - 1 }).trans (traceCount _ _)

theorem noteDeath (x : Object) (h : Header) : Steady F w (w.noteDeath x h) := by
  unfold World.noteDeath
  split <;> exact of_eq rfl rfl rfl rfl

theorem panic (p : Panic) : Steady F w (w.panic p) := by
  unfold World.panic
  split <;> exact of_eq rfl rfl rfl rfl

theorem sink (n : Int) : Steady F w (w.sink n) := by
  unfold World.sink
  split <;> exact of_eq rfl rfl rfl rfl

theorem bury (o : ObjId) (x : Object) (next : Header) : Steady F w (w.bury o x next).1 := by
  unfold World.bury
  split
  · exact (modifyObject o _).trans (panic _)
  · exact (noteDeath _ _).trans (of_eq rfl rfl rfl rfl)

theorem giveBackObject (o : ObjId) : Steady F w (w.giveBackObject o).1 := by
  unfold World.giveBackObject
  split
  · exact refl w
  · split
    · exact refl w
    · exact panic _
    · exact ((noteRelease _).trans (modifyObject o _)).trans (sink _)
    · exact (noteRelease _).trans (modifyObject o _)
    · exact (noteRelease _).trans (bury o _ _)

theorem giveBackRecord (r : RecordId) : Steady F w (w.giveBackRecord r).1 :=
  ofRecords (.disown Footprint.KeepsRecord.refl r fun _ => .inr ⟨rfl, Iff.rfl⟩)

theorem giveBackFrame (f : FrameId) (order : Frame → List Handle) :
    Steady F w (w.giveBackFrame f order).1 :=
  ofFrames (.disown Footprint.KeepsFrame.refl f fun _ => ⟨.inl rfl, .inr rfl⟩)

theorem giveBackGenerator (g : GenId) : Steady F w (w.giveBackGenerator g).1 :=
  ofGenerators (.disown Footprint.KeepsContext.refl g fun _ => ⟨rfl, rfl, .inl rfl, .inr ⟨rfl, rfl, rfl⟩⟩)

theorem giveBack (h : Handle) : Steady F w (w.giveBack h).1 := by
  cases h with
  | object o => exact giveBackObject o
  | record r => exact giveBackRecord r
  | frame f => exact giveBackFrame f _
  | below f => exact giveBackFrame f _
  | generator g => exact giveBackGenerator g

theorem hold (h : Handle) : Steady F w (w.hold h) := by
  cases h with
  | object o =>
    simp only [World.hold, World.retain]
    split
    · exact refl w
    · exact (noteRetain _).trans (modifyObject o _)
  | record r => exact modifyRecord r _ fun _ _ => .inr ⟨rfl, Iff.rfl⟩
  | frame f => exact modifyFrame f _ fun _ _ => ⟨.inl rfl, .inr rfl⟩
  | below f => exact modifyFrame f _ fun _ _ => ⟨.inl rfl, .inr rfl⟩
  | generator g => exact modifyGenerator g _ fun _ _ => ⟨rfl, rfl, .inl rfl, .inr ⟨rfl, rfl, rfl⟩⟩

end Steady

/-! ## Moves -/

theorem Move.steady {F : Footprint} {w v : World ε} {out rest : Multiset Handle}
    (move : Move F w out v rest) : Steady F w v := by
  cases move with
  | quiet same => exact .of_eq same.generators same.records same.frames same.stack
  | fault _ x => exact .of_eq rfl rfl rfl rfl
  | relabel _ => exact .refl w
  | giveBack h => exact .giveBack h
  | hold _ _ => exact .hold _
  | addObject _ => exact .of_eq rfl rfl rfl rfl
  | markImmortal o _ => exact .modifyObject o _
  | mint _ => exact .refl w
  | addRecord _ => exact .ofRecords (.insert Footprint.KeepsRecord.refl _ trivial)
  | addFrame _ attached unlinked =>
    exact .ofFrames (.insert Footprint.KeepsFrame.refl _ ⟨attached, .inr unlinked⟩)
  | addGenerator births _ => exact .ofGenerators (.insert Footprint.KeepsContext.refl _ births)
  | editRecord f found _ still _ =>
    refine .modifyRecord _ f fun y there => ?_
    rw [found] at there
    cases there
    exact still
  | editFrame f found _ attached link _ =>
    refine .modifyFrame _ f fun y there => ?_
    rw [found] at there
    cases there
    exact ⟨attached, link⟩
  | editGenerator f found _ kind frame still live _ =>
    refine .modifyGenerator _ f fun y there => ?_
    rw [found] at there
    cases there
    exact ⟨kind, frame, live, still⟩
  | setStack allowed _ =>
    exact ⟨.refl Footprint.KeepsContext.refl, .refl Footprint.KeepsRecord.refl,
      .refl Footprint.KeepsFrame.refl, .inl allowed⟩

theorem Moves.steady {F : Footprint} {w v : World ε} {out rest : Multiset Handle}
    (moves : Moves F w out v rest) : Steady F w v := by
  induction moves with
  | refl => exact .refl w
  | tail _ last ih => exact ih.trans last.steady

end Activation
