import Activation.Event
import Activation.Generator.Basic
import Activation.Lock
import Activation.Panic
import Activation.Store

/-! # The world

All shared state in one value: the things that have identities, the stack of the running thread, the
lock, the knobs, and what has been reported so far. `ε` is the state of the program that uses the
library; its bodies and builders find their own data there.

Reading under an identity that names nothing gives a value without contents, and a context that has
finished.
-/

namespace Activation
set_option autoImplicit false

/-- The stack of a thread: its innermost frame, and how many frames it tracks. -/
structure Stack where
  current : Option FrameId := none
  depth : Nat := 0
deriving DecidableEq, Repr

/-- The report of a destructor. -/
structure Death where
  type : String
  payload : Payload
  count : Int
deriving DecidableEq, Repr

/-- Upper bound on the frames of one walk, unless it is set. -/
def defaultMaxDepth : Nat := 100000

structure World (ε : Type) where
  objects : Store Object := Store.empty.insert .nothing
  records : Store Record := .empty
  frames : Store Frame := .empty
  generators : Store Generator := .empty
  stack : Stack := {}
  lock : Lock := {}
  /-- The running thread. -/
  thread : ThreadId := 0
  maxDepth : Nat := defaultMaxDepth
  /-- Whether every retain and release is reported. -/
  dumpRefs : Bool := false
  /-- Retains minus releases over all objects. -/
  refTotal : Int := 0
  events : Array Event := #[]
  deaths : Array Death := #[]
  fault : Option Fault := none
  host : ε

/-- The object without a value has the first identity. -/
def nothing : ObjId := 0

def Record.absent : Record := { code := { module := "", name := "" }, owners := 0 }

def Frame.absent : Frame := { code := { module := "", name := "" }, owners := 0 }

def Generator.absent : Generator :=
  { kind := .generator, frame := 0, backing := .compiled .completed 0, body := none, owners := 0 }

namespace World

variable {ε : Type}

/-! ## Reading -/

def object (w : World ε) (o : ObjId) : Object := (w.objects.get? o).getD .nothing

def record (w : World ε) (r : RecordId) : Record := (w.records.get? r).getD .absent

def frame (w : World ε) (f : FrameId) : Frame := (w.frames.get? f).getD .absent

def generator (w : World ε) (g : GenId) : Generator := (w.generators.get? g).getD .absent

/-! ## Writing -/

def modifyObject (w : World ε) (o : ObjId) (f : Object → Object) : World ε :=
  { w with objects := w.objects.modify o f }

def modifyRecord (w : World ε) (r : RecordId) (f : Record → Record) : World ε :=
  { w with records := w.records.modify r f }

def modifyFrame (w : World ε) (i : FrameId) (f : Frame → Frame) : World ε :=
  { w with frames := w.frames.modify i f }

def modifyGenerator (w : World ε) (g : GenId) (f : Generator → Generator) : World ε :=
  { w with generators := w.generators.modify g f }

def modifyHost (w : World ε) (f : ε → ε) : World ε := { w with host := f w.host }

def setStack (w : World ε) (s : Stack) : World ε := { w with stack := s }

/-- Sets the bound on walks, which is never zero. -/
def setMaxDepth (w : World ε) (depth : Nat) : World ε := { w with maxDepth := max depth 1 }

/-! ## The lock -/

/-- Takes a guard for the running thread; while another thread owns the lock nothing happens. -/
def acquireLock (w : World ε) : LockGuard × World ε :=
  match w.lock.acquire w.thread with
  | some (guard, lock) => (guard, { w with lock })
  | none => (⟨false⟩, w)

/-- Drops a guard of the running thread. -/
def releaseLock (w : World ε) : World ε := { w with lock := w.lock.drop w.thread }

/-- Whether the running thread holds the lock. -/
def holdsLock (w : World ε) : Bool := w.lock.isHeld w.thread

/-! ## Reporting -/

def emit (w : World ε) (e : Event) : World ε := { w with events := w.events.push e }

/-! ## Faults -/

/-- Whether a panic is unwinding. -/
def isUnwinding (w : World ε) : Bool :=
  match w.fault with
  | some (.unwinding _) => true
  | _ => false

/-- Ends the program by a count below zero, unless it has ended already. -/
def sink (w : World ε) (count : Int) : World ε :=
  match w.fault with
  | none => { w with fault := some (.negative count) }
  | some (.unwinding _) => { w with fault := some (.negative count) }
  | some _ => w

/-- Starts a panic; while another one is unwinding, the program ends. -/
def panic (w : World ε) (p : Panic) : World ε :=
  match w.fault with
  | none => { w with fault := some (.unwinding p) }
  | some (.unwinding _) => { w with fault := some .uncaught }
  | some _ => w

/-- Stops a panic, and tells which one it was. -/
def catchPanic (w : World ε) : Option Panic × World ε :=
  match w.fault with
  | some (.unwinding p) => (some p, { w with fault := none })
  | _ => (none, w)

/-- Runs a whole operation while a panic may be unwinding. The operation takes no notice of that
panic, which goes on afterwards; a panic of its own ends the program. -/
def cleanUp (w : World ε) (f : World ε → World ε) : World ε :=
  match w.catchPanic with
  | (none, w) => f w
  | (some p, w) =>
    match (f w).catchPanic with
    | (none, v) => { v with fault := v.fault.or (some (.unwinding p)) }
    | (some _, v) => { v with fault := some .uncaught }

end World

end Activation
