import Activation.World.Handles

/-! # Records in the world

Making records, reading and binding their slots, and clearing them.
-/

namespace Activation.World
set_option autoImplicit false

variable {ε : Type}

def addRecord (w : World ε) (x : Record) : RecordId × World ε :=
  (w.records.next, { w with records := w.records.insert x })

def setLastInstr (w : World ε) (r : RecordId) (ip : Int) : World ε :=
  w.modifyRecord r fun x => { x with lastInstr := ip }

def setState (w : World ε) (r : RecordId) (s : RecordState) : World ε :=
  w.modifyRecord r fun x => { x with state := s }

/-- A new reference to the value of a slot, if the slot is bound. -/
def slot (w : World ε) (r : RecordId) (i : Nat) : Option ObjId × World ε :=
  match (w.record r).slot i with
  | none => (none, w)
  | some o => (some o, w.retain o)

/-- Binds a slot to a reference and gives back the previous one. -/
def setSlot (w : World ε) (r : RecordId) (i : Nat) (o : ObjId) : World ε :=
  let previous := (w.record r).slot i
  (w.modifyRecord r fun x => x.bind i o).drop (previous.toList.map .object)

/-- Gives back every bound slot and marks the record cleared, unless a count panics. -/
def clear (w : World ε) (r : RecordId) : World ε :=
  let held := (w.record r).held
  let w := (w.modifyRecord r fun x => { x with slots := [] }).drop held
  if w.isUnwinding then w else w.setState r .cleared

end Activation.World
