import Activation.Exception
import Activation.World.Handles

/-! # The host

The program around the library supplies the bodies of generators and the builders of records. Both
are named by tokens and may change the world.
-/

namespace Activation
set_option autoImplicit false

/-- What a caller puts into a suspended body. -/
inductive Injection where
  | send (o : ObjId)
  | throw (e : Exception)
  | close
deriving DecidableEq

/-- What a body receives. A request to close arrives as a thrown exception. -/
inductive Input where
  | sent (o : ObjId)
  | thrown (e : Exception)
deriving DecidableEq

/-- How one run of a body ends. -/
inductive Ending where
  | yields (o : ObjId)
  | returns (o : ObjId)
  | raises (e : Exception)
  | panics (p : Panic)
deriving DecidableEq

structure Host (ε : Type) where
  /-- Runs a body of a context until it gives control back. The input belongs to the body. -/
  step : BodyId → GenId → Input → World ε → Ending × World ε
  /-- Builds the record of a compact frame with this code, stopped at this instruction. -/
  build : BuilderId → Code → Int → World ε → Except Panic Record × World ε

def Exception.held (e : Exception) : List Handle := e.value.toList.map .object

namespace Injection

def isThrowing : Injection → Bool
  | .send _ => false
  | _ => true

def isClosing : Injection → Bool
  | .close => true
  | _ => false

def input : Injection → Input
  | .send o => .sent o
  | .throw e => .thrown e
  | .close => .thrown .generatorExit

def held : Injection → List Handle
  | .send o => [.object o]
  | .throw e => e.held
  | .close => []

end Injection

def Input.held : Input → List Handle
  | .sent o => [.object o]
  | .thrown e => e.held

end Activation
