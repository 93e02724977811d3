import Activation.Generator.Resume
import Activation.World.Walk

/-! # Replies

What a script is told about each command. Things are described by the labels under which the script
knows them.
-/

namespace Activation.Script
set_option autoImplicit false

inductive PayloadInfo where
  | none
  | bool (value : Bool)
  | int (value : Int)
  | str (value : String)
  | generator (label : String)
deriving DecidableEq, Repr

structure ObjectInfo where
  type : String
  value : PayloadInfo
  count : Int
  immortal : Bool
deriving DecidableEq, Repr

structure ExceptionInfo where
  kind : ExceptionKind
  message : String
  display : String
  value : Option ObjectInfo
deriving DecidableEq, Repr

structure HeaderInfo where
  count : Int
  immortal : Bool
deriving DecidableEq, Repr

structure RecordInfo where
  label : String
  code : String
  lastInstr : Int
  line : Option Nat
  state : RecordState
  slots : Nat
deriving DecidableEq, Repr

/-- How a frame is represented at the moment. -/
inductive ReprInfo where
  | compact (code : String) (ip : Int)
  | record (label : String)
deriving DecidableEq, Repr

structure FrameInfo where
  label : String
  owner : FrameOwner
  form : ReprInfo
  canMaterialize : Bool
  lastInstr : Int
  line : Option Nat
  linked : Bool
  prev : Option String
  awaiter : Option String
deriving DecidableEq, Repr

structure GeneratorInfo where
  kind : GeneratorKind
  compiled : Bool
  state : GenState
  yieldPoint : Option Nat
  completed : Bool
  justStarted : Bool
  executing : Bool
  runnable : Bool
  awaiter : Option String
deriving DecidableEq, Repr

/-- Why a command failed. -/
inductive Failure where
  | frame (e : FrameError)
  | generator (e : GeneratorError)
  /-- With the number of visits made, where a visitor was at work. -/
  | walk (e : WalkError) (visits : Option Nat)
  | unknownName (name : String)
  | nestedTooDeep
deriving DecidableEq, Repr

/-- How a resumption ended, with what it handed over described. -/
inductive ResumptionInfo where
  | yielded (value : ObjectInfo)
  | returned (value : ObjectInfo)
  | raised (e : ExceptionInfo) (inspected : String)
  | refused (e : GeneratorError)
  | panicked (p : Panic)
deriving DecidableEq, Repr

/-- What a running body learns about its own context. -/
structure SelfInfo where
  kind : GeneratorKind
  frame : String
  lastInstr : Int
  awaiting : Option (Except GeneratorError Unit)
  record : Option RecordInfo
  held : Bool

mutual

inductive Answer where
  | done
  | skipped
  | flag (value : Bool)
  | number (value : Int)
  | text (value : String)
  | label (value : Option String)
  | calls (value : Option Nat)
  | code (c : Code)
  | type (t : TypeInfo)
  | object (o : ObjectInfo)
  | objectDetail (o : ObjectInfo) (isNone : Bool) (asInt : Option Int) (asStr : Option String)
  | handedOver (o : Option ObjectInfo)
  | same (is : Bool)
  | counts (kept after : Int)
  | released (r : Released) (o : ObjectInfo)
  | toggled (returned setting : Bool)
  | header (h : HeaderInfo)
  | headerReleased (h : HeaderInfo) (dead : List Nat)
  | record (r : RecordInfo)
  | materialized (r : RecordInfo) (hasRecord : Bool)
  | records (rs : List RecordInfo)
  | frame (f : FrameInfo)
  | position (lastInstr : Int) (line : Option Nat)
  | resolved (code qualified : String) (record : Option String)
  | top (label : Option String) (depth : Nat)
  | popped (count depth : Nat)
  | walked (visited : Nat) (seen : List String)
  | snapshot (entries : List (StackEntry × Option String))
  | names (names : List String)
  | lines (entries : List (String × Option Nat))
  | frames (entries : List (String × Option Nat × Option String))
  | samples (suspended native : List (String × Option Nat))
  | generator (g : GeneratorInfo)
  | awaiters (context frame : Option String)
  | self (s : SelfInfo)
  | guard (outermost held : Bool)
  | held (here elsewhere : Bool)
  | thread (replies : List Reply)

inductive Reply where
  | ok (a : Answer)
  | failed (e : Failure)
  | panicked (p : Panic)
  | resumed (r : ResumptionInfo) (body : List Entry) (gen : GeneratorInfo) (depth : Nat)

/-- What a body saw and did during one resumption. -/
inductive Entry where
  | sent (o : ObjectInfo)
  | thrown (e : ExceptionInfo)
  | step (r : Reply)

end

/-- The result of one step of a script: its reply with the deaths and events of the step, or the last
words of a program that ended. -/
inductive StepResult where
  | replied (reply : Reply) (deaths : List Death) (events : List Event)
  | aborted (text : String)

end Activation.Script
