import Activation.Record

/-! # Frames

A frame is the entry of one activation in the logical call stack. It starts out compact (code and
instruction pointer) or carries a record from the beginning, and links to the frame below it and to
the frame of the activation that awaits it. The link to an awaiter does not keep the awaiter alive.
-/

namespace Activation
set_option autoImplicit false

/-- Names a way to build the record of a compact frame. -/
abbrev BuilderId := Nat

/-- Who made the frame. -/
inductive FrameOwner where
  | compiled
  | interpreter
deriving DecidableEq, Repr

def FrameOwner.name : FrameOwner → String
  | .compiled => "Compiled"
  | .interpreter => "Interpreter"

structure Frame where
  code : Code
  owner : FrameOwner := .compiled
  ip : Int := -1
  record : Option RecordId := none
  builder : Option BuilderId := none
  prev : Option FrameId := none
  awaiter : Option FrameId := none
  /-- The number of handles on the frame. -/
  owners : Nat := 1

namespace Frame

/-- A compact frame for compiled code. -/
def compiled (code : Code) (builder : Option BuilderId) : Frame := { code, builder }

def isMaterialized (f : Frame) : Bool := f.record.isSome

def canMaterialize (f : Frame) : Bool := f.isMaterialized || f.builder.isSome

/-- Whether the frame stands on another one. -/
def isLinked (f : Frame) : Bool := f.prev.isSome

end Frame

/-- Why a frame cannot be reported. -/
inductive FrameError where
  | notFound
  | notSupported (name : String)
  | corruptChain (depth : Nat)
  | depthMismatch (tracked actual : Nat)
deriving DecidableEq, Repr

namespace FrameError

def message : FrameError → String
  | .notFound => "no frame found"
  | .notSupported name => "materializing frame '" ++ name ++ "' is not supported"
  | .corruptChain depth => "shadow frame chain is corrupt at depth " ++ toString depth
  | .depthMismatch tracked actual =>
    "shadow stack depth is " ++ toString tracked ++ " but the chain has " ++ toString actual ++ " frames"

end FrameError

end Activation
