import Activation.Header
import Activation.TypeInfo

/-! # Objects

Everything that can be shared goes by an identity. An object is a header, a type and a payload.
-/

namespace Activation
set_option autoImplicit false

abbrev ObjId := Nat
abbrev RecordId := Nat
abbrev FrameId := Nat
abbrev GenId := Nat

inductive Payload where
  | none
  | bool (value : Bool)
  | int (value : Int)
  | str (value : String)
  | generator (g : GenId)
deriving DecidableEq, Repr

structure Object where
  header : Header := .fresh
  type : TypeInfo
  payload : Payload
deriving DecidableEq

namespace Object

def isNone (o : Object) : Bool := o.payload = .none

def asInt (o : Object) : Option Int :=
  match o.payload with
  | .int n => some n
  | _ => Option.none

def asStr (o : Object) : Option String :=
  match o.payload with
  | .str s => some s
  | _ => Option.none

/-- The shared object without a value; it is immortal from birth. -/
def nothing : Object := ⟨.immortal, .noneType, .none⟩

end Object

end Activation
