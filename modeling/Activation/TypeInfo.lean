import Activation.Text.Inspect

/-! # Types of objects

A type has a name, capability bits, and possibly a destructor that runs when an object of the type dies.

* `Destructor.Observes`: the destructor looks at the object and does nothing else.
-/

namespace Activation
set_option autoImplicit false

/-- Capability bits of a type. -/
structure TypeFlags where
  bits : Nat
deriving DecidableEq, Repr

namespace TypeFlags

def none : TypeFlags := ⟨0⟩
/-- Instances never shadow attributes of the type. -/
def noShadowing : TypeFlags := ⟨1⟩
def generator : TypeFlags := ⟨2⟩
def coroutine : TypeFlags := ⟨4⟩

def union (a b : TypeFlags) : TypeFlags := ⟨a.bits ||| b.bits⟩

def contains (a b : TypeFlags) : Bool := a.bits &&& b.bits == b.bits

end TypeFlags

/-- What runs when an object dies, in the middle of a release. It is code of the program around the library:
it may report the object, and it may fail, but it does not come back to the library. -/
inductive Destructor where
  | absent
  | reports
  | panics (text : String)
deriving DecidableEq, Repr

namespace Destructor

def Observes : Destructor → Prop
  | .panics _ => False
  | _ => True

instance decidableObserves : (d : Destructor) → Decidable d.Observes
  | .absent | .reports => .isTrue trivial
  | .panics _ => .isFalse id

/-- A destructor of which only the presence is known reports. -/
instance : Coe Bool Destructor := ⟨fun present => if present then .reports else .absent⟩

end Destructor

structure TypeInfo where
  name : String
  flags : TypeFlags := .none
  destructor : Destructor := .absent
deriving DecidableEq, Repr

/-- How an attribute of an instance may be looked up. -/
inductive Shadowing where
  | typeAttributesWin
  | instanceMayShadow
deriving DecidableEq, Repr

namespace Shadowing

def name : Shadowing → String
  | .typeAttributesWin => "TypeAttributesWin"
  | .instanceMayShadow => "InstanceMayShadow"

end Shadowing

namespace TypeInfo

def hasNoShadowing (t : TypeInfo) : Bool := t.flags.contains .noShadowing

def shadowing (t : TypeInfo) : Shadowing :=
  if t.hasNoShadowing then .typeAttributesWin else .instanceMayShadow

def inspect (t : TypeInfo) : String :=
  Text.inspectFields "TypeDescriptor"
    [("name", Text.quoted t.name), ("flags", "TypeFlags(" ++ toString t.flags.bits ++ ")"),
     ("destructor", Text.inspectBool (t.destructor != .absent))]

/-! ## Types the library makes itself -/

def noneType : TypeInfo := ⟨"NoneType", .noShadowing, .absent⟩
def int : TypeInfo := ⟨"int", .noShadowing, .absent⟩
def str : TypeInfo := ⟨"str", .noShadowing, .absent⟩
def generator : TypeInfo := ⟨"generator", .generator, .absent⟩
def coroutine : TypeInfo := ⟨"coroutine", .coroutine, .absent⟩
def asyncGenerator : TypeInfo := ⟨"async_generator", .union .generator .coroutine, .absent⟩

def builtins : List TypeInfo := [noneType, int, str, generator, coroutine, asyncGenerator]

end TypeInfo

end Activation
