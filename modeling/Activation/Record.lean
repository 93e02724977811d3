import Activation.Code
import Activation.Object

/-! # Records

The full record of an activation, which is what a debugger sees: its code, the last executed
instruction, the execution state, and the slots of its local variables.
-/

namespace Activation
set_option autoImplicit false

inductive RecordState where
  | created
  | suspended
  | executing
  | returned
  | raised
  | cleared
deriving DecidableEq, Repr

namespace RecordState

def isRunnable (s : RecordState) : Bool := s = .created || s = .suspended

def isExecuting (s : RecordState) : Bool := s = .executing

def isCompleted (s : RecordState) : Bool := s = .returned || s = .raised || s = .cleared

def name : RecordState → String
  | .created => "Created"
  | .suspended => "Suspended"
  | .executing => "Executing"
  | .returned => "Returned"
  | .raised => "Raised"
  | .cleared => "Cleared"

end RecordState

structure Record where
  code : Code
  /-- Offset of the last executed instruction; negative before the first one. -/
  lastInstr : Int := -1
  state : RecordState := .created
  /-- Each bound slot owns one reference. -/
  slots : List (Option ObjId) := []
  /-- The number of handles on the record. -/
  owners : Nat := 1

namespace Record

def line (r : Record) : Option Nat := r.code.lineFor r.lastInstr

def slot (r : Record) (i : Nat) : Option ObjId := (r.slots[i]?).join

/-- The objects of the bound slots, in order. -/
def bound (r : Record) : List ObjId := r.slots.filterMap id

/-- Binds a slot, growing the record as needed. -/
def bind (r : Record) (i : Nat) (o : ObjId) : Record :=
  let grown := r.slots ++ List.replicate (i + 1 - r.slots.length) none
  { r with slots := grown.set i (some o) }

def inspect (r : Record) : String :=
  Text.inspectFields "FrameRecord"
    [("code", r.code.inspect), ("last_instr", toString r.lastInstr), ("state", r.state.name)]

end Record

end Activation
