import Activation.Generator.Resume
import Activation.World.Walk

/-! # Demonstrations

What the program's commands have in common: each drives the library for a while, prints lines, and
ends well, with an error, or not at all.
-/

namespace Activation
set_option autoImplicit false

namespace Cli

/-- The code of a demonstration: one parameter, and two lines after the definition. -/
def demoCode (module name : String) (firstLine : Nat) : Code :=
  { module, name, qualname? := some name, args := 1, firstLine,
    lines := [⟨0, firstLine + 1⟩, ⟨8, firstLine + 2⟩] }

/-- How a demonstration ends. -/
inductive DemoEnding where
  | success
  | failed (message : String)
  | aborted (lastWords : String)
deriving DecidableEq, Repr

structure Demo where
  lines : List String
  events : List Event
  ending : DemoEnding
deriving DecidableEq, Repr

/-- The demonstration that printed these lines and left the world in this state. A fault that ends the
program comes before every other ending. -/
def Demo.finish {ε : Type} (w : World ε) (lines : List String) (ending : DemoEnding) : Demo :=
  { lines, events := w.events.toList,
    ending := ((w.fault.bind Fault.farewell).map DemoEnding.aborted).getD ending }

end Cli

end Activation
