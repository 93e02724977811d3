import Activation.Generator.Resume
import Activation.World.Walk

/-! # Commands

A script drives the library by commands over named things. Generators of a script run bodies that are
themselves lists of commands.

* `ValueSpec`, `ExceptionSpec`, `RecordSpec`: how a script writes down what it wants to have made.
* `Segment`, `Body`: what a body does between two suspensions.
* `Command`: one step of a script.
-/

namespace Activation.Script
set_option autoImplicit false

/-- A payload that a script can write down. -/
inductive Literal where
  | none
  | bool (value : Bool)
  | int (value : Int)
  | str (value : String)
deriving DecidableEq, Repr

def Literal.payload : Literal → Payload
  | .none => .none
  | .bool b => .bool b
  | .int n => .int n
  | .str s => .str s

/-- A value to be made, or a new reference to be taken. -/
inductive ValueSpec where
  | plain (value : Literal)
  | object (name : String)
  | generator (name : String)
  | typed (type : String) (value : Literal) (immortal : Bool)
deriving DecidableEq, Repr

structure ExceptionSpec where
  kind : ExceptionKind
  message : String
  value : Option ValueSpec
deriving DecidableEq, Repr

/-- What a record is made from; the code of a frame is the default. -/
structure RecordSpec where
  code : Option String := none
  slots : List (Option ValueSpec) := []
  lastInstr : Option Int := none
  state : Option RecordState := none
deriving DecidableEq, Repr

/-- How a compact frame gets its record. -/
structure BuilderSpec where
  record : RecordSpec
  panics : Bool := false
deriving DecidableEq, Repr

inductive InjectionSpec where
  | send (value : ValueSpec)
  | throw (e : ExceptionSpec)
  | close
deriving DecidableEq, Repr

/-- How a segment of a body ends. -/
inductive Finish where
  | yields (value : ValueSpec)
  | returns (value : ValueSpec)
  | raises (e : ExceptionSpec)
  | panics (text : String)
  /-- A sent value comes back, as a return or as a yield; an exception is raised again. -/
  | echo (returning : Bool)
deriving DecidableEq, Repr

/-! ## Commands without bodies -/

/-- How the setting that reports counts is to change. -/
inductive Switch where
  | ask
  | set (on : Bool)
  | toggle
deriving DecidableEq, Repr

inductive ObjectCommand where
  | code (id : String) (code : Code)
  | type (id : String) (type : TypeInfo)
  | builtinType (name : String)
  | make (id : String) (value : ValueSpec)
  | info (id : String)
  | same (a b : String)
  | release (id : String)
  | cloneMany (id : String) (n : Nat)
  | markImmortal (id : String)
  | retain (id : String) (n : Nat)
  | releaseHeader (id : String)
  | setCount (id : String) (count : Count)
  | refTotal
  | dumpRefs (switch : Switch)
deriving DecidableEq

inductive HeaderCommand where
  | make (id : String) (header : Header)
  | retain (id : String) (n : Nat)
  | release (id : String) (n : Nat)
  | markImmortal (id : String) (n : Nat)
  | setCount (id : String) (count : Count) (n : Nat)
deriving DecidableEq

inductive RecordCommand where
  | make (id : String) (record : RecordSpec)
  | info (id : String)
  | clear (id : String)
  | setState (id : String) (state : RecordState)
  | setLastInstr (id : String) (ip : Int)
  | setSlot (id : String) (i : Nat) (value : ValueSpec)
  | slot (id : String) (i : Nat) (keep : Option String)
  | drop (id : String)
deriving DecidableEq, Repr

inductive FrameCommand where
  | interpreted (id : String) (record : String)
  | compiled (id : String) (code : String) (builder : Option BuilderSpec)
  | info (id : String)
  | setIp (id : String) (ip : Int)
  | linkAwaiter (id : String) (awaiter : Option String)
  | materialize (id : String) (keep : Option String)
  | builderCalls (id : String)
  | bindRecord (id : String) (record : String)
  | resolve (id : String)
  | next (id : String)
  | drop (id : String)
deriving DecidableEq, Repr

inductive StackCommand where
  | push (id : String)
  | pushMany (code : String) (n : Nat)
  | pop
  | popMany (n : Nat)
  | enter (id : String) (guard : String)
  | leave (guard : String)
  | current
  | verify (limit : Nat)
  | materializeAll
  | dump
deriving DecidableEq, Repr

/-- Where a walk begins. -/
inductive WalkStart where
  | current
  | nowhere
  | frame (id : String)
deriving DecidableEq, Repr

inductive WalkCommand where
  | maxDepth (set : Option Nat)
  | walk (start : WalkStart) (stopAfter failAfter : Option Nat) (quiet : Bool)
  | snapshot (detail : Detail)
  | callStack
  | samples (capacity : Nat)
  | findFirstArg (name : String) (skip : Nat) (keep : Option String)
  | names
  | lines
  | frames
  | awaiterFrame
  | coroutineAwaiter (gen : String)
deriving DecidableEq, Repr

/-- Two nested accesses to one cell, the outer one first. -/
inductive Nesting where
  | readRead
  | readWrite
  | writeRead
  | writeWrite
deriving DecidableEq, Repr

inductive LockCommand where
  | acquire (id : String)
  | release (id : String)
  | held
  | cell (id : String) (value : Int64)
  | cellAdd (id : String) (by_ : Int64)
  | cellTake (id : String)
  | cellNested (id : String) (nesting : Nesting)
  | cellRace (id : String) (workers rounds : Nat)
deriving DecidableEq

/-- Things that have an inspection text. -/
inductive Subject where
  | object
  | record
  | frame
  | generator
  | code
  | type
deriving DecidableEq, Repr

/-! ## Commands with bodies -/

mutual

inductive Command where
  | object (c : ObjectCommand)
  | header (c : HeaderCommand)
  | record (c : RecordCommand)
  | frame (c : FrameCommand)
  | stack (c : StackCommand)
  | walk (c : WalkCommand)
  | lock (c : LockCommand)
  | inspect (what : Subject) (id : String)
  | interpretedGenerator (id : String) (kind : GeneratorKind) (record : String) (body : Body)
  | compiledGenerator (id : String) (kind : GeneratorKind) (code : String)
      (builder : Option BuilderSpec) (body : Body)
  | generatorInfo (gen : String)
  | dropGenerator (gen : String)
  | setAwaiter (gen : String) (awaiter : Option String)
  | resume (gen : String) (injection : InjectionSpec) (external : Option String)
      (keep : Option String)
  /-- What a running body may ask of its own context. -/
  | self (ip : Option Int) (awaiting : Option String) (record : Bool)
  | thread (steps : List Command)

/-- The steps of a body between two suspensions, and how they end. -/
inductive Segment where
  | mk (run : List Command) (finish : Finish)

/-- The segments for the values sent in turn, the one for all later values, and the segments for
thrown exceptions by the name of their kind, where no name stands for every kind. -/
inductive Body where
  | mk (segments : List Segment) (rest : Option Segment) (handlers : List (Option String × Segment))

end

def Body.segments : Body → List Segment
  | .mk segments _ _ => segments

def Body.rest : Body → Option Segment
  | .mk _ rest _ => rest

def Body.handlers : Body → List (Option String × Segment)
  | .mk _ _ handlers => handlers

/-- The segment for the value that is sent after `n` others. -/
def Body.forSend (b : Body) (n : Nat) : Option Segment := (b.segments[n]?).or b.rest

/-- The segment for an exception. -/
def Body.forThrow (b : Body) (kind : ExceptionKind) : Option Segment :=
  (b.handlers.find? fun h => h.1.all fun name => name == kind.name).map (·.2)

end Activation.Script
