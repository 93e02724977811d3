/-! # Panics and faults

A panic unwinds to whoever is prepared to catch it. On its way everything that was still held is given
back, so a panic is noted in the world as a fault: the work that was under way is left undone, and the
cleaning up goes on. A second panic on the way ends the program, as does a count below zero.
-/

namespace Activation
set_option autoImplicit false

inductive Panic where
  /-- A frame that stands on another one was pushed. -/
  | alreadyLinked
  /-- The current frame was pushed again. -/
  | ontoItself
  /-- A guard removed a frame that was not its own. -/
  | unbalancedPop
  | countOverflow
  /-- A cell was to be changed while it was being read or changed. -/
  | alreadyBorrowed
  /-- A cell was to be read while it was being changed. -/
  | alreadyMutablyBorrowed
  /-- The builder of a record failed at an instruction. -/
  | builder (ip : Int)
  /-- The body of a generator failed. -/
  | body (text : String)
  /-- The destructor of an object failed. -/
  | destructor (text : String)
deriving DecidableEq, Repr

def Panic.message : Panic → String
  | .alreadyLinked => "frame pushed while already linked"
  | .ontoItself => "frame pushed on top of itself"
  | .unbalancedPop => "unbalanced shadow frame pop"
  | .countOverflow => "attempt to subtract with overflow"
  | .alreadyBorrowed => "RefCell already borrowed"
  | .alreadyMutablyBorrowed => "RefCell already mutably borrowed"
  | .builder ip => "materializer failed at " ++ toString ip
  | .body text => text
  | .destructor text => text

inductive Fault where
  /-- A mortal count went below zero. The program ends. -/
  | negative (count : Int)
  /-- A panic arose where none can be caught: while another one was unwinding, or at the end of a
  thread. The program ends. -/
  | uncaught
  /-- A panic is unwinding. -/
  | unwinding (p : Panic)
deriving DecidableEq, Repr

namespace Fault

/-- The last words of the program, for faults that end it. -/
def farewell : Fault → Option String
  | .negative count => some ("negative reference count " ++ toString count)
  | .uncaught => some "panic in a destructor during cleanup"
  | .unwinding _ => none

end Fault

end Activation
