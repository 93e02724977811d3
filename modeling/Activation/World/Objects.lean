import Activation.World.Handles

/-! # Making objects

A new object is owned by the reference that its maker gets, and counts in the reference total unless it
is immortal from birth.
-/

namespace Activation.World
set_option autoImplicit false

variable {ε : Type}

def addObject (w : World ε) (x : Object) : ObjId × World ε :=
  (w.objects.next, { w with objects := w.objects.insert x })

def newObject (w : World ε) (type : TypeInfo) (payload : Payload) : ObjId × World ε :=
  { w with refTotal := w.refTotal + 1 }.addObject ⟨.fresh, type, payload⟩

def newImmortal (w : World ε) (type : TypeInfo) (payload : Payload) : ObjId × World ε :=
  w.addObject ⟨.immortal, type, payload⟩

def newInt (w : World ε) (n : Int) : ObjId × World ε := w.newObject .int (.int n)

def newStr (w : World ε) (s : String) : ObjId × World ε := w.newObject .str (.str s)

/-- Exempts an object from counting for good. -/
def markImmortal (w : World ε) (o : ObjId) : World ε := w.setHeader o .immortal

/-- Overwrites a count; an immortal object keeps its own. -/
def setCount (w : World ε) (o : ObjId) (c : Count) : World ε :=
  w.setHeader o ((w.object o).header.setCount c)

/-- Takes `n` more references to an object. -/
def retainMany (w : World ε) (o : ObjId) (n : Nat) : World ε := n.repeat (fun w => w.retain o) w

end Activation.World
